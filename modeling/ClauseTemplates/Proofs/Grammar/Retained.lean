import ClauseTemplates.Proofs.Grammar.Folding
import ClauseTemplates.Proofs.Grammar.Seen

namespace ClauseTemplates

open Json Scan Scanner

/-- What a name stands for in the data of its scope. -/
def Json.part? (name : String) (data : Json) : Option Json :=
  if name = thisName then some data else data.get? name

theorem Json.part?_of_same {a b w : Json} {name : String} (h : a.same b = true)
    (hw : b.part? name = some w) : ∃ v, a.part? name = some v ∧ v.same w = true := by
  unfold part? at hw ⊢
  split
  · rename_i hname
    rw [if_pos hname] at hw
    cases hw
    exact ⟨a, rfl, h⟩
  · rename_i hname
    rw [if_neg hname] at hw
    exact get?_of_same h hw

namespace Seen

/-- The names whose values the value of a block keeps. A record has fields only. A single value is
the current value where that is seen, and a record where its type has records. -/
def Retains : Seen → String → Prop
  | .element type slots, name =>
    if slots.any SeenSlot.isThis then name = thisName else type.isSome = true
  | _, name => name ≠ thisName

section

variable (text : List Char) (counts : Seen → String → Prop)

mutual

/-- The data have what is seen, under the names that count in each block. -/
def In : Seen → Json → Prop
  | .captured c, data => ∃ v, c.FoldsTo text v ∧ data.same v = true
  | .record type identifier slots, data =>
    SlotsIn (counts (.record type identifier slots)) slots data
  | .element type slots, data => SlotsIn (counts (.element type slots)) slots data
  | .array items, data => ∃ vs, data = .arr vs ∧ ItemsIn items vs

def ItemsIn : List Seen → List Json → Prop
  | [], data => data = []
  | item :: rest, data => ∃ v vs, data = v :: vs ∧ item.In v ∧ ItemsIn rest vs

def SlotsIn (among : String → Prop) : List SeenSlot → Json → Prop
  | [], _ => True
  | .mk name seen _ :: rest, data =>
    (among name → ∃ v, data.part? name = some v ∧ seen.In v) ∧ SlotsIn among rest data

end

end

variable {text : List Char} {counts : Seen → String → Prop}

mutual

theorem In.of_same : ∀ {s : Seen} {a b : Json}, s.In text counts b → a.same b = true →
    s.In text counts a
  | .captured c, a, b, ⟨v, hv, hsame⟩, h => ⟨v, hv, same_trans h hsame⟩
  | .record _ _ slots, a, b, hb, h => by
    rw [In] at hb ⊢
    exact SlotsIn.of_same hb h
  | .element _ slots, a, b, hb, h => by
    rw [In] at hb ⊢
    exact SlotsIn.of_same hb h
  | .array items, a, b, hb, h => by
    rw [In] at hb ⊢
    obtain ⟨ws, rfl, hitems⟩ := hb
    obtain ⟨vs, rfl, hsame⟩ := eq_arr_of_same h
    exact ⟨vs, rfl, ItemsIn.of_same hitems hsame⟩

theorem ItemsIn.of_same : ∀ {items : List Seen} {as bs : List Json},
    ItemsIn text counts items bs → sameItems as bs = true → ItemsIn text counts items as
  | [], as, bs, hb, h => by
    cases as with
    | nil => rfl
    | cons _ _ =>
      rw [ItemsIn] at hb
      rw [hb] at h
      simp [sameItems] at h
  | item :: rest, as, bs, hb, h => by
    obtain ⟨v, vs, rfl, hv, hvs⟩ := hb
    cases as with
    | nil => simp [sameItems] at h
    | cons a as =>
      rw [sameItems, Bool.and_eq_true] at h
      exact ⟨a, as, rfl, hv.of_same h.1, ItemsIn.of_same hvs h.2⟩

theorem SlotsIn.of_same {among : String → Prop} : ∀ {slots : List SeenSlot} {a b : Json},
    SlotsIn text counts among slots b → a.same b = true → SlotsIn text counts among slots a
  | [], _, _, _, _ => trivial
  | .mk name seen _ :: rest, a, b, ⟨hfirst, hrest⟩, h => by
    refine ⟨fun hname => ?_, SlotsIn.of_same hrest h⟩
    obtain ⟨w, hw, hseen⟩ := hfirst hname
    obtain ⟨v, hv, hsame⟩ := part?_of_same h hw
    exact ⟨v, hv, hseen.of_same hsame⟩

end

mutual

/-- A value has all that is seen, but for what its blocks do not retain. -/
theorem in_of_fold : ∀ (s : Seen) {n m : Nat} {v : Json},
    (Captured.fold text s.erase).run n = .ok (v, m) → s.In text Retains v
  | .captured c, n, m, v, h => ⟨v, ⟨n, m, h⟩, same_self v⟩
  | .record type identifier slots, n, m, v, h => by
    rw [erase] at h
    rw [In]
    exact fieldsIn_of_fold slots (fun _ _ _ _ hname => hname) h
  | .element type slots, n, m, v, h => by
    rw [erase] at h
    unfold Captured.ofElement at h
    rw [any_eraseSlots] at h
    rw [In]
    by_cases hthis : slots.any SeenSlot.isThis = true
    · rw [if_pos hthis] at h
      obtain ⟨found, hfound, rfl⟩ := Captured.run_fold_unwrapped.mp h
      refine slotsIn_of_slots slots fun name seen start hmem hname => ?_
      rw [Retains, if_pos hthis] at hname
      subst hname
      obtain ⟨first, v, j, k, rfl, hv, hsame⟩ := Captured.foldThis_slot hfound (mem_eraseSlots hmem)
      exact ⟨first, v, j, k, if_pos rfl, hv, hsame⟩
    · rw [if_neg hthis] at h
      cases type with
      | none =>
        refine slotsIn_of_slots slots fun name _ _ _ hname => ?_
        rw [Retains, if_neg hthis] at hname
        cases hname
      | some type =>
        refine fieldsIn_of_fold slots (fun name seen start hmem _ hname => hthis ?_) h
        exact List.any_eq_true.mpr ⟨_, hmem, beq_iff_eq.mpr hname⟩
  | .array items, n, m, v, h => by
    rw [erase] at h
    obtain ⟨vs, hvs, rfl⟩ := Captured.run_fold_array.mp h
    exact ⟨vs, rfl, itemsIn_of_fold items hvs⟩

theorem itemsIn_of_fold : ∀ (items : List Seen) {n m : Nat} {vs : List Json},
    (Captured.foldItems text (eraseItems items)).run n = .ok (vs, m) →
      ItemsIn text Retains items vs
  | [], n, m, vs, h => by
    rw [eraseItems, Captured.foldItems] at h
    exact (Folding.run_pure_eq_ok.mp h).1
  | item :: rest, n, m, vs, h => by
    rw [eraseItems] at h
    obtain ⟨v, k, ws, hv, hws, rfl⟩ := Captured.run_foldItems_cons.mp h
    exact ⟨v, ws, rfl, in_of_fold item hv, itemsIn_of_fold rest hws⟩

theorem slotsIn_of_slots {among : String → Prop} : ∀ (slots : List SeenSlot) {data : Json},
    (∀ name seen start, .mk name seen start ∈ slots → among name → ∃ first v j k,
      data.part? name = some first ∧ (Captured.fold text seen.erase).run j = .ok (v, k) ∧
        (first = v ∨ first.same v = true)) →
      SlotsIn text Retains among slots data
  | [], _, _ => trivial
  | .mk name seen start :: rest, data, h => by
    refine ⟨fun hname => ?_, slotsIn_of_slots rest fun other s n hmem =>
      h other s n (List.mem_cons_of_mem _ hmem)⟩
    obtain ⟨first, v, j, k, hfirst, hv, hsame⟩ := h name seen start List.mem_cons_self hname
    refine ⟨first, hfirst, ?_⟩
    rcases hsame with rfl | hsame
    · exact in_of_fold seen hv
    · exact (in_of_fold seen hv).of_same hsame

/-- The fields of a record have what is seen, but for the current value. -/
theorem fieldsIn_of_fold {among : String → Prop} {type : String} {identifier : Option String}
    (slots : List SeenSlot)
    (hamong : ∀ name seen start, .mk name seen start ∈ slots → among name → name ≠ thisName)
    {n m : Nat} {v : Json}
    (h : (Captured.fold text (.record type identifier (eraseSlots slots))).run n = .ok (v, m)) :
    SlotsIn text Retains among slots v := by
  obtain ⟨fields, k, hfields, rfl, _⟩ := Captured.run_fold_record.mp h
  refine slotsIn_of_slots slots fun name seen start hmem hname => ?_
  have hne := hamong name seen start hmem hname
  obtain ⟨first, v, j, k, hget, hv, hsame⟩ :=
    Captured.foldSlots_slot hfields (mem_eraseSlots hmem) hne
  exact ⟨first, v, j, k, (if_neg hne).trans (Captured.get?_identified_of_some hget), hv, hsame⟩

end

mutual

/-- Every block retains all names that are seen in it. -/
def Lossless : Seen → Prop
  | .captured _ => True
  | .record type identifier slots => SlotsLossless (Retains (.record type identifier slots)) slots
  | .element type slots => SlotsLossless (Retains (.element type slots)) slots
  | .array items => ItemsLossless items

def ItemsLossless : List Seen → Prop
  | [] => True
  | item :: rest => item.Lossless ∧ ItemsLossless rest

def SlotsLossless (retained : String → Prop) : List SeenSlot → Prop
  | [] => True
  | .mk name seen _ :: rest => retained name ∧ seen.Lossless ∧ SlotsLossless retained rest

end

theorem itemsLossless_of_forall {items : List Seen} (h : ∀ item ∈ items, item.Lossless) :
    ItemsLossless items := by
  induction items with
  | nil => trivial
  | cons item rest ih =>
    exact ⟨h item List.mem_cons_self, ih fun other hmem => h other (List.mem_cons_of_mem _ hmem)⟩

theorem slotsLossless_append {retained : String → Prop} {slots more : List SeenSlot} :
    SlotsLossless retained (slots ++ more) ↔
      SlotsLossless retained slots ∧ SlotsLossless retained more := by
  induction slots with
  | nil => simp [SlotsLossless]
  | cons slot rest ih =>
    obtain ⟨name, seen, start⟩ := slot
    simp [SlotsLossless, ih, and_assoc]

theorem SlotsLossless.retained {retained : String → Prop} {slots : List SeenSlot} {name : String}
    {seen : Seen} {start : Nat} (h : SlotsLossless retained slots)
    (hmem : .mk name seen start ∈ slots) : retained name := by
  induction slots with
  | nil => cases hmem
  | cons slot rest ih =>
    obtain ⟨other, s, n⟩ := slot
    rcases List.mem_cons.mp hmem with heq | hmem
    · cases heq
      exact h.1
    · exact ih h.2.2 hmem

theorem SlotsLossless.imp {retained retained' : String → Prop} {slots : List SeenSlot}
    (h : SlotsLossless retained slots)
    (himp : ∀ name seen start, .mk name seen start ∈ slots → retained name → retained' name) :
    SlotsLossless retained' slots := by
  induction slots with
  | nil => trivial
  | cons slot rest ih =>
    obtain ⟨name, seen, start⟩ := slot
    exact ⟨himp name seen start List.mem_cons_self h.1, h.2.1,
      ih h.2.2 fun other s n hmem => himp other s n (List.mem_cons_of_mem _ hmem)⟩

mutual

/-- Where every block retains what is seen in it, the value has all of it. -/
theorem Lossless.in_all : ∀ {s : Seen} {v : Json}, s.Lossless → s.In text Retains v →
    s.In text (fun _ _ => True) v
  | .captured _, _, _, h => h
  | .record _ _ slots, v, hl, h => by
    rw [In] at h ⊢
    exact SlotsLossless.in_all hl h
  | .element _ slots, v, hl, h => by
    rw [In] at h ⊢
    exact SlotsLossless.in_all hl h
  | .array items, v, hl, h => by
    obtain ⟨vs, rfl, hitems⟩ := h
    exact ⟨vs, rfl, ItemsLossless.in_all hl hitems⟩

theorem ItemsLossless.in_all : ∀ {items : List Seen} {vs : List Json}, ItemsLossless items →
    ItemsIn text Retains items vs → ItemsIn text (fun _ _ => True) items vs
  | [], _, _, h => h
  | item :: rest, _, hl, h => by
    obtain ⟨v, vs, rfl, hv, hvs⟩ := h
    exact ⟨v, vs, rfl, hl.1.in_all hv, ItemsLossless.in_all hl.2 hvs⟩

theorem SlotsLossless.in_all {retained : String → Prop} : ∀ {slots : List SeenSlot} {v : Json},
    SlotsLossless retained slots → SlotsIn text Retains retained slots v →
      SlotsIn text (fun _ _ => True) (fun _ => True) slots v
  | [], _, _, _ => trivial
  | .mk name seen _ :: rest, v, hl, ⟨hfirst, hrest⟩ => by
    obtain ⟨w, hw, hseen⟩ := hfirst hl.1
    exact ⟨fun _ => ⟨w, hw, hl.2.1.in_all hseen⟩, SlotsLossless.in_all hl.2.2 hrest⟩

end

end Seen

mutual

/-- A grammar that shows allowed names only, with blocks inside whose values retain what is seen. -/
def Grammar.Keeps : Grammar → (String → Prop) → Prop
  | .text _, _ => True
  | .seq first second, allowed => first.Keeps allowed ∧ second.Keeps allowed
  | .either first second, allowed => first.Keeps allowed ∧ second.Keeps allowed
  | .flagged branch name _, allowed => branch.Keeps allowed ∧ allowed name
  | .slot name value, allowed => allowed name ∧ value.Keeps
  | .formula, _ => True
  | .orderedMark, _ => True
  | .optionally body, allowed => body.Keeps allowed

def ValueGrammar.Keeps : ValueGrammar → Prop
  | .scalar _ => True
  | .reference _ => True
  | .enum _ => True
  | .compound _ => True
  | .record _ _ body => body.Keeps (· ≠ thisName)
  | .element type body =>
    body.Keeps (· = thisName) ∨ type.isSome = true ∧ body.Keeps (· ≠ thisName)
  | .items _ _ item => item.Keeps

end

namespace Grammar

variable {context : ScanContext} {compound : String → Scanner Char Captured}

theorem lossless_of_leaf {value : ValueGrammar} {c next : Cursor Char} {seen : Seen}
    (h : read? (seenLeaf context compound value) c = some (seen, next)) : seen.Lossless := by
  rw [seenLeaf, read?_bind] at h
  obtain ⟨x, _, heq⟩ := Option.bind_eq_some_iff.mp h
  cases heq
  trivial

mutual

/-- What is seen through a grammar that keeps it gets into the value. -/
theorem lossless_of_read : ∀ (g : Grammar) {allowed : String → Prop} {c next : Cursor Char}
    {slots : List SeenSlot}, g.Keeps allowed →
    read? (g.seenScanner context compound) c = some (slots, next) → Seen.SlotsLossless allowed slots
  | .text chars, allowed, c, next, slots, _, h => by
    rw [seenScanner, read?_bind] at h
    obtain ⟨x, _, heq⟩ := Option.bind_eq_some_iff.mp h
    cases heq
    trivial
  | .seq first second, allowed, c, next, slots, ⟨hf, hs⟩, h => by
    rw [seenScanner, read?_bind] at h
    obtain ⟨x, hx, h⟩ := Option.bind_eq_some_iff.mp h
    rw [read?_bind] at h
    obtain ⟨y, hy, heq⟩ := Option.bind_eq_some_iff.mp h
    cases heq
    exact Seen.slotsLossless_append.mpr ⟨lossless_of_read first hf hx, lossless_of_read second hs hy⟩
  | .either first second, allowed, c, next, slots, ⟨hf, hs⟩, h => by
    rw [seenScanner, read?_orElse] at h
    rcases Option.or_eq_some_iff.mp h with h | ⟨_, h⟩
    · exact lossless_of_read first hf h
    · exact lossless_of_read second hs h
  | .flagged branch name flag, allowed, c, next, slots, ⟨hb, hname⟩, h => by
    rw [seenScanner, read?_located] at h
    obtain ⟨x, hx, heq⟩ := Option.map_eq_some_iff.mp h
    cases heq
    exact Seen.slotsLossless_append.mpr ⟨lossless_of_read branch hb hx, hname, trivial, trivial⟩
  | .slot name value, allowed, c, next, slots, ⟨hname, hv⟩, h => by
    rw [seenScanner, read?_located] at h
    obtain ⟨x, hx, heq⟩ := Option.map_eq_some_iff.mp h
    cases heq
    exact ⟨hname, lossless_of_readValue value hv hx, trivial⟩
  | .formula, allowed, c, next, slots, _, h => by
    rw [seenScanner, read?_bind] at h
    obtain ⟨x, _, h⟩ := Option.bind_eq_some_iff.mp h
    rw [read?_bind] at h
    obtain ⟨y, _, heq⟩ := Option.bind_eq_some_iff.mp h
    cases heq
    trivial
  | .orderedMark, allowed, c, next, slots, _, h => by
    rw [seenScanner, read?_bind] at h
    obtain ⟨x, _, heq⟩ := Option.bind_eq_some_iff.mp h
    cases heq
    trivial
  | .optionally body, allowed, c, next, slots, hb, h => by
    rw [seenScanner, read?_bind, read?_optional] at h
    cases hbody : read? (body.seenScanner context compound) c with
    | none =>
      rw [hbody] at h
      cases h
      trivial
    | some x =>
      rw [hbody] at h
      cases h
      exact lossless_of_read body hb hbody

theorem lossless_of_readValue : ∀ (v : ValueGrammar) {c next : Cursor Char} {seen : Seen}, v.Keeps →
    read? (seenValueScanner context compound v) c = some (seen, next) → seen.Lossless
  | .scalar _, c, next, seen, _, h => lossless_of_leaf h
  | .reference _, c, next, seen, _, h => lossless_of_leaf h
  | .enum _, c, next, seen, _, h => lossless_of_leaf h
  | .compound _, c, next, seen, _, h => lossless_of_leaf h
  | .record type identifier body, c, next, seen, hb, h => by
    rw [seenValueScanner, read?_bind] at h
    obtain ⟨x, hx, heq⟩ := Option.bind_eq_some_iff.mp h
    cases heq
    exact lossless_of_read body hb hx
  | .element type body, c, next, seen, hb, h => by
    rw [seenValueScanner, read?_bind] at h
    obtain ⟨⟨slots, last⟩, hx, heq⟩ := Option.bind_eq_some_iff.mp h
    cases heq
    rw [Seen.Lossless]
    rcases hb with hthis | ⟨htype, hother⟩
    · have hslots := lossless_of_read body hthis hx
      refine hslots.imp fun name seen start hmem hname => ?_
      have hany : slots.any SeenSlot.isThis = true :=
        List.any_eq_true.mpr ⟨_, hmem, beq_iff_eq.mpr hname⟩
      rw [Seen.Retains, if_pos hany]
      exact hname
    · have hslots := lossless_of_read body hother hx
      refine hslots.imp fun name seen start hmem hname => ?_
      have hany : ¬ slots.any SeenSlot.isThis = true := by
        intro hany
        obtain ⟨⟨other, s, n⟩, hmem, hother⟩ := List.any_eq_true.mp hany
        exact hslots.retained hmem (beq_iff_eq.mp hother)
      rw [Seen.Retains, if_neg hany]
      exact htype
  | .items separator nonempty item, c, next, seen, hitem, h => by
    rw [seenValueScanner, read?_bind] at h
    obtain ⟨x, hx, heq⟩ := Option.bind_eq_some_iff.mp h
    cases heq
    exact Seen.itemsLossless_of_forall
      (read?_separated_forall (fun _ _ _ => lossless_of_readValue item hitem) hx)

end

end Grammar

end ClauseTemplates
