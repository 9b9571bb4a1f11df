import ClauseTemplates.Proofs.Scan.Repeated
import ClauseTemplates.Proofs.Template.Level
import Mathlib.Data.List.TakeDrop

namespace ClauseTemplates

namespace Scanner

open Scan

variable {τ α β : Type} {P : α → Prop} {Q : β → Prop}

/-- Every value that is read has a property. -/
def Gives (p : Scanner τ α) (P : α → Prop) : Prop :=
  ∀ c a next, read? p c = some (a, next) → P a

theorem gives_any (p : Scanner τ α) : Gives p fun _ => True := fun _ _ _ _ => trivial

theorem gives_pure {a : α} (h : P a) : Gives (pure a : Scanner τ α) P := by
  intro c b next hr
  cases hr
  exact h

theorem Gives.bind {p : Scanner τ α} {q : α → Scanner τ β} (hp : Gives p P)
    (hq : ∀ a, P a → Gives (q a) Q) : Gives (p >>= q) Q := by
  intro c b next hr
  rw [read?_bind] at hr
  obtain ⟨⟨a, between⟩, ha, hb⟩ := Option.bind_eq_some_iff.mp hr
  exact hq a (hp c a between ha) between b next hb

theorem Gives.orElse {p q : Scanner τ α} (hp : Gives p P) (hq : Gives q P) : Gives (orElse p q) P := by
  intro c a next hr
  rw [read?_orElse] at hr
  rcases Option.or_eq_some_iff.mp hr with hr | ⟨_, hr⟩
  · exact hp c a next hr
  · exact hq c a next hr

theorem Gives.optional {p : Scanner τ α} (hp : Gives p P) :
    Gives (optional p) fun a => ∀ b ∈ a, P b := by
  intro c a next hr b hb
  rw [read?_optional] at hr
  cases hx : read? p c with
  | none =>
    rw [hx] at hr
    cases hr
    cases hb
  | some x =>
    rw [hx] at hr
    cases hr
    cases hb
    exact hp c x.1 x.2 hx

theorem Gives.tryMap {p : Scanner τ α} {f : α → Except String β} (hp : Gives p P)
    (hf : ∀ a b, P a → f a = .ok b → Q b) : Gives (tryMap p f) Q := by
  intro c b next hr
  rw [read?_tryMap] at hr
  obtain ⟨⟨a, between⟩, ha, hb⟩ := Option.bind_eq_some_iff.mp hr
  obtain ⟨b', hb', hb⟩ := Option.map_eq_some_iff.mp hb
  cases hb
  refine hf a b (hp c a between ha) ?_
  cases hfa : f a with
  | error e => rw [hfa] at hb'; cases hb'
  | ok x => rw [hfa] at hb'; cases hb'; rfl

theorem gives_choice {ps : List (Scanner τ α)} (h : ∀ p ∈ ps, Gives p P) : Gives (choice ps) P := by
  intro c a next hr
  rw [read?_choice] at hr
  obtain ⟨p, hp, hr⟩ := List.exists_of_findSome?_eq_some hr
  exact h p hp c a next hr

theorem Gives.many {p : Scanner τ α} (hp : Gives p P) (least : Nat) :
    Gives (many p least) fun as => ∀ a ∈ as, P a := by
  have hrounds (most count : Nat) (c next : Cursor τ) (as : List α)
      (h : rounds? p least most count c = some (as, next)) : ∀ a ∈ as, P a := by
    induction most generalizing count c as with
    | zero =>
      cases h
      simp
    | succ most ih =>
      unfold rounds? at h
      cases hr : read? p c with
      | none =>
        simp only [hr] at h
        split at h
        · cases h
        · cases h
          simp
      | some x =>
        simp only [hr] at h
        have hx := hp c x.1 x.2 hr
        split at h
        · obtain ⟨y, hy, h⟩ := Option.map_eq_some_iff.mp h
          cases h
          exact List.forall_mem_cons.mpr ⟨hx, ih (count + 1) x.2 y.1 hy⟩
        · cases h
          simpa using hx
  intro c as next h
  rw [read?_many] at h
  exact hrounds _ _ c next as h

end Scanner

namespace Markup

open Scanner

/-- Properties, one for each level, of nodes that markup is read to: what is made of nodes with the
property has it again, and so do the nodes inside one. -/
structure Shape (P : Level → Node → Prop) : Prop where
  ofVariable : ∀ name format, P .inline (.variable (.unbound name format))
  formula : ∀ code, P .inline (.formula ⟨"", code, []⟩)
  conditional : ∀ name condition whenTrue whenFalse, (condition.isSome = true → name = "") →
    (∀ n ∈ whenTrue, P .inline n) → (∀ n ∈ whenFalse, P .inline n) →
    P .inline (.conditional name condition whenTrue whenFalse)
  optional : ∀ name whenSome whenNone, (∀ n ∈ whenSome, P .inline n) →
    (∀ n ∈ whenNone, P .inline n) → P .inline (.optional name none whenSome whenNone)
  within : ∀ name children, (∀ n ∈ children, P .inline n) → P .inline (.within name none children)
  join : ∀ name separator children, (∀ n ∈ children, P .inline n) →
    P .inline (.join name none separator children)
  list : ∀ name kind children, (∀ n ∈ children, P .block n) → P .block (.list name kind none children)
  clause : ∀ name src condition children, name.toList.all isNamePart = true →
    (∀ n ∈ children, P .block n) → P .block (.clause name none src condition children)
  leaf : ∀ level l, l.level? = some level → P level (.leaf l)
  markup : ∀ level inner frame children, frame.levels? = some (level, inner) →
    (∀ n ∈ children, P inner n) → P level (.markup frame children)
  inside : ∀ level inner frame children, frame.levels? = some (level, inner) →
    P level (.markup frame children) → ∀ n ∈ children, P inner n

/-- The name of a region is made of the characters of names. -/
theorem regionOpening?_name {text : List Char} {opening : RegionOpening}
    (h : regionOpening? text = some opening) : opening.name.toList.all isNamePart = true := by
  unfold regionOpening? at h
  obtain ⟨cs, _, h⟩ := Option.bind_eq_some_iff.mp h
  obtain ⟨⟨tag, cs⟩, _, h⟩ := Option.bind_eq_some_iff.mp h
  obtain ⟨cs, _, h⟩ := Option.bind_eq_some_iff.mp h
  rw [List.span_eq_takeWhile_dropWhile] at h
  obtain ⟨first, _, h⟩ := Option.bind_eq_some_iff.mp h
  dsimp only at h
  split at h
  · cases h
  · obtain ⟨rest, _, h⟩ := Option.bind_eq_some_iff.mp h
    split at h
    · cases h
      rw [String.toList_ofList]
      exact List.all_takeWhile
    · cases h

section

variable {P : Level → Node → Prop} {inlines : Scanner Char (List Node)}
  (hi : Gives inlines fun ns => ∀ n ∈ ns, P .inline n)

include hi

theorem gives_elseBranch : Gives (elseBranch inlines) fun ns => ∀ n ∈ ns, P .inline n := by
  refine Gives.bind ((gives_any _).bind fun _ _ => hi).optional fun branch h => gives_pure ?_
  cases branch with
  | none => simp
  | some nodes => exact h nodes rfl

theorem gives_nonempty : Gives (nonempty inlines) fun ns => ∀ n ∈ ns, P .inline n := by
  refine hi.tryMap fun nodes found hn hf => ?_
  split at hf
  · cases hf
  · cases hf
    exact hn

end

/-- A condition stands in the place of a name. -/
theorem gives_guard : Gives guard fun found => found.2.isSome = true → found.1 = "" :=
  ((gives_any _).bind fun _ _ => (gives_any _).bind fun _ _ => gives_pure fun _ => rfl).orElse
    ((gives_any _).bind fun _ _ => gives_pure nofun)

section

variable {P : Level → Node → Prop} (hP : Shape P)

include hP

theorem shape_joinText {ns : List Node} (h : ∀ n ∈ ns, P .inline n) :
    ∀ n ∈ joinText ns, P .inline n := by
  induction ns using joinText.induct with
  | case1 => simp [joinText]
  | case2 s rest t more heq ih =>
    have ih := ih fun n hn => h n (List.mem_cons_of_mem _ hn)
    rw [heq] at ih
    simp only [joinText, heq]
    exact List.forall_mem_cons.mpr ⟨hP.leaf _ _ rfl, (List.forall_mem_cons.mp ih).2⟩
  | case3 s rest hne ih =>
    have h : ∀ n ∈ Node.leaf (.text s) :: joinText rest, P .inline n :=
      List.forall_mem_cons.mpr ⟨hP.leaf _ _ rfl, ih (List.forall_mem_cons.mp h).2⟩
    rw [joinText]
    split
    · rename_i heq
      exact absurd heq (hne _ _)
    · exact h
  | case4 n rest hne ih =>
    obtain ⟨hn, hrest⟩ := List.forall_mem_cons.mp h
    rw [joinText]
    · exact List.forall_mem_cons.mpr ⟨hn, ih hrest⟩
    · exact hne

section

variable {inlines : Scanner Char (List Node)} (hi : Gives inlines fun ns => ∀ n ∈ ns, P .inline n)

include hi

theorem gives_conditional : Gives (conditional inlines) (P .inline) :=
  (gives_any _).bind fun _ _ => gives_guard.bind fun _ hg => (gives_any _).bind fun _ _ =>
    hi.bind fun _ ht => (gives_elseBranch hi).bind fun _ hf => (gives_any _).bind fun _ _ =>
      gives_pure (hP.conditional _ _ _ _ hg ht hf)

theorem gives_optionalBlock : Gives (optionalBlock inlines) (P .inline) :=
  (gives_any _).bind fun _ _ => (gives_any _).bind fun _ _ => (gives_any _).bind fun _ _ =>
    hi.bind fun _ hs => (gives_elseBranch hi).bind fun _ hn => (gives_any _).bind fun _ _ =>
      gives_pure (hP.optional _ _ _ hs hn)

theorem gives_withinBlock : Gives (withinBlock inlines) (P .inline) :=
  (gives_any _).bind fun _ _ => (gives_any _).bind fun _ _ => (gives_any _).bind fun _ _ =>
    hi.bind fun _ hc => (gives_any _).bind fun _ _ => gives_pure (hP.within _ _ hc)

theorem gives_joinBlock : Gives (joinBlock inlines) (P .inline) :=
  (gives_any _).bind fun _ _ => (gives_any _).bind fun _ _ => (gives_any _).bind fun _ _ =>
    (gives_any _).bind fun _ _ => hi.bind fun _ hc => (gives_any _).bind fun _ _ =>
      gives_pure (hP.join _ _ _ hc)

theorem gives_strong : Gives (strong inlines) (P .inline) :=
  (gives_any _).bind fun _ _ => (gives_nonempty hi).bind fun _ hc => (gives_any _).bind fun _ _ =>
    gives_pure (hP.markup _ .inline _ _ rfl hc)

theorem gives_emph : Gives (emph inlines) (P .inline) :=
  (gives_any _).bind fun _ _ => (gives_nonempty hi).bind fun _ hc => (gives_any _).bind fun _ _ =>
    gives_pure (hP.markup _ .inline _ _ rfl hc)

end

theorem gives_formula : Gives formula (P .inline) :=
  (gives_any _).bind fun _ _ => (gives_any _).bind fun _ _ => gives_pure (hP.formula _)

theorem gives_inlineVariable : Gives inlineVariable (P .inline) :=
  (gives_any _).bind fun _ _ => (gives_any _).bind fun _ _ => (gives_any _).bind fun _ _ =>
    (gives_any _).bind fun _ _ => (gives_any _).bind fun _ _ => gives_pure (hP.ofVariable _ _)

theorem gives_brace : Gives brace (P .inline) := by
  refine Gives.tryMap (gives_any _) fun braces n _ h => ?_
  cases braces with
  | none =>
    cases h
    exact hP.leaf _ _ rfl
  | some _ => cases h

theorem gives_inlineNode {inlines : Scanner Char (List Node)}
    (hi : Gives inlines fun ns => ∀ n ∈ ns, P .inline n) : Gives (inlineNode inlines) (P .inline) := by
  have htext {α : Type} {p : Scanner Char α} (f : α → Leaf) (hf : ∀ a, (f a).level? = some .inline) :
      Gives (do let a ← p; pure (Node.leaf (f a))) (P .inline) :=
    (gives_any p).bind fun a _ => gives_pure (hP.leaf _ _ (hf a))
  refine gives_choice fun p hp => ?_
  simp only [List.mem_cons, List.not_mem_nil, or_false] at hp
  rcases hp with rfl | rfl | rfl | rfl | rfl | rfl | rfl | rfl | rfl | rfl | rfl | rfl | rfl | rfl
  · exact gives_formula hP
  · exact gives_conditional hP hi
  · exact gives_optionalBlock hP hi
  · exact gives_withinBlock hP hi
  · exact gives_joinBlock hP hi
  · exact gives_inlineVariable hP
  · exact (gives_any _).bind fun _ _ => htext (fun _ => .linebreak) fun _ => rfl
  · exact (gives_any _).bind fun _ _ => htext (fun c => .text (String.ofList [c])) fun _ => rfl
  · exact gives_strong hP hi
  · exact gives_emph hP hi
  · exact (gives_any _).bind fun _ _ => (gives_any _).bind fun _ _ =>
      htext (fun _ => .code _) fun _ => rfl
  · exact htext (fun _ => .softbreak) fun _ => rfl
  · exact gives_brace hP
  · exact htext (fun cs => .text (String.ofList cs)) fun _ => rfl

theorem gives_inlines (fuel : Nat) : Gives (inlines fuel) fun ns => ∀ n ∈ ns, P .inline n := by
  induction fuel with
  | zero => rintro c a next ⟨⟩
  | succ fuel ih =>
    exact ((gives_inlineNode hP ih).many 0).bind fun ns h => gives_pure (shape_joinText hP h)

theorem shape_readInlines {text : List Char} {ns : List Node} (h : readInlines text = .ok ns) :
    ∀ n ∈ ns, P .inline n := by
  have hg : Gives (do let nodes ← inlines (text.length + 1); endOfInput; pure nodes)
      fun ns => ∀ n ∈ ns, P .inline n :=
    (gives_inlines hP _).bind fun ns h => (gives_any _).bind fun _ _ => gives_pure h
  obtain ⟨next, hr⟩ := run_eq_ok.mp h
  exact hg _ _ _ hr

theorem shape_readParagraphLines {lines : List Line} {ns : List Node}
    (h : readParagraphLines lines = .ok ns) : ∀ n ∈ ns, P .inline n := by
  unfold readParagraphLines at h
  split at h
  · rename_i hr
    cases h
    exact shape_readInlines hP hr
  · cases h

theorem shape_itemTemplate? {kind : ListKind} {ns item : List Node}
    (h : itemTemplate? kind ns = some item) (hn : ∀ n ∈ ns, P .block n) : ∀ n ∈ item, P .block n := by
  unfold itemTemplate? at h
  split at h
  · split at h
    · cases h
      have hlist := hP.inside _ .item _ _ rfl (hn _ (List.mem_singleton_self _))
      exact hP.inside .item _ _ _ rfl (hlist _ (List.mem_singleton_self _))
    · cases h
  · cases h

theorem shape_regionNode {line : Line} {opening : RegionOpening} {children : List Node} {n : Node}
    (ho : opening.name.toList.all isNamePart = true) (hc : ∀ n ∈ children, P .block n)
    (h : regionNode line opening children = .ok n) : P .block n := by
  obtain ⟨⟨src, condition⟩, _, h⟩ := bind_eq_ok.mp h
  dsimp only at h
  split at h
  · cases h
    exact hP.clause _ _ _ _ ho hc
  · split at h
    · rename_i hi
      cases h
      exact hP.list _ _ _ (shape_itemTemplate? hP hi hc)
    · cases h
  · split at h
    · rename_i hi
      cases h
      exact hP.list _ _ _ (shape_itemTemplate? hP hi hc)
    · cases h

theorem shape_readFence {line : Line} {info : List Char} {rest after : List Line} {n : Node}
    (h : readFence line info rest = .ok (n, after)) : P .block n := by
  unfold readFence at h
  split at h
  · cases h
  · cases h
    exact hP.leaf _ _ rfl

theorem shape_mapM_items {read : List Line → Reading (List Node)}
    (hread : ∀ lines ns, read lines = .ok ns → ∀ n ∈ ns, P .block n) :
    ∀ (items : List (List Line)) (ns : List Node),
      items.mapM (fun item => do pure (Node.markup .item (← read item))) = .ok ns →
      ∀ n ∈ ns, P .item n
  | [], ns, h => by
    rw [List.mapM_nil] at h
    cases h
    simp
  | item :: items, ns, h => by
    rw [List.mapM_cons] at h
    obtain ⟨n, hn, h⟩ := bind_eq_ok.mp h
    obtain ⟨more, hmore, h⟩ := bind_eq_ok.mp h
    cases h
    obtain ⟨children, hc, hn⟩ := bind_eq_ok.mp hn
    cases hn
    exact List.forall_mem_cons.mpr ⟨hP.markup _ .block _ _ rfl (hread item children hc),
      shape_mapM_items hread items more hmore⟩

theorem shape_readBlock {read : List Line → Reading (List Node)}
    (hread : ∀ lines ns, read lines = .ok ns → ∀ n ∈ ns, P .block n) {line : Line}
    {rest after : List Line} {n : Node} (h : readBlock read line rest = .ok (n, after)) :
    P .block n := by
  have hlist (kind : ListKind) (start : UInt32) (items : List (List Line)) (more : List Line)
      (h : (do
        let items ← items.mapM fun item => do pure (Node.markup .item (← read item))
        pure (Node.markup (.list kind start) items, more)) = Except.ok (n, after)) :
      P .block n := by
    obtain ⟨ns, hns, h⟩ := bind_eq_ok.mp h
    cases h
    exact hP.markup _ .item _ _ rfl (shape_mapM_items hP hread items ns hns)
  unfold readBlock at h
  dsimp only at h
  split at h
  · rename_i opening hopen
    split at h
    · cases h
    · obtain ⟨children, hc, h⟩ := bind_eq_ok.mp h
      obtain ⟨m, hm, h⟩ := bind_eq_ok.mp h
      cases h
      exact shape_regionNode hP (regionOpening?_name hopen) (hread _ children hc) hm
  split at h
  · cases h
  split at h
  · exact shape_readFence hP h
  split at h
  · obtain ⟨children, hc, h⟩ := bind_eq_ok.mp h
    cases h
    exact hP.markup _ .inline _ _ rfl (shape_readParagraphLines hP hc)
  split at h
  · cases h
    exact hP.leaf _ _ rfl
  split at h
  · obtain ⟨children, hc, h⟩ := bind_eq_ok.mp h
    cases h
    exact hP.markup _ .block _ _ rfl (hread _ children hc)
  split at h
  · exact hlist .bullet _ _ _ h
  split at h
  · exact hlist .ordered _ _ _ h
  · obtain ⟨children, hc, h⟩ := bind_eq_ok.mp h
    cases h
    exact hP.markup _ .inline _ _ rfl (shape_readParagraphLines hP hc)

/-- The nodes that lines are read to have the properties of every shape. -/
theorem shape_readBlocks : ∀ (fuel : Nat) (lines : List Line) (ns : List Node),
    readBlocks fuel lines = .ok ns → ∀ n ∈ ns, P .block n
  | 0, _, ns, h => by
    cases h
    simp
  | _ + 1, [], ns, h => by
    cases h
    simp
  | fuel + 1, line :: rest, ns, h => by
    rw [readBlocks] at h
    split at h
    · exact shape_readBlocks fuel rest ns h
    · obtain ⟨⟨n, after⟩, hn, h⟩ := bind_eq_ok.mp h
      obtain ⟨more, hmore, h⟩ := bind_eq_ok.mp h
      cases h
      exact List.forall_mem_cons.mpr
        ⟨shape_readBlock hP (shape_readBlocks fuel) hn, shape_readBlocks fuel after more hmore⟩

end

theorem shape_at : Shape fun level n => n.At level where
  ofVariable _ _ := rfl
  formula _ := rfl
  conditional _ _ _ _ _ ht hf := ⟨rfl, Node.eachAt_iff.mpr ht, Node.eachAt_iff.mpr hf⟩
  optional _ _ _ hs hn := ⟨rfl, Node.eachAt_iff.mpr hs, Node.eachAt_iff.mpr hn⟩
  within _ _ hc := ⟨rfl, Node.eachAt_iff.mpr hc⟩
  join _ _ _ hc := ⟨rfl, Node.eachAt_iff.mpr hc⟩
  list _ _ _ hc := ⟨rfl, Node.eachAt_iff.mpr hc⟩
  clause _ _ _ _ ho hc := ⟨rfl, ho, Node.eachAt_iff.mpr hc⟩
  leaf _ _ hl := hl
  markup _ inner _ _ hl hc := ⟨inner, hl, Node.eachAt_iff.mpr hc⟩
  inside level inner frame children hl h := by
    obtain ⟨inner', hl', hc⟩ := h
    rw [hl] at hl'
    cases hl'
    exact Node.eachAt_iff.mp hc

theorem read_at {markup : String} {ns : List Node} (h : read markup = .ok ns) :
    Node.EachAt .block ns := by
  obtain ⟨nodes, hn, h⟩ := bind_eq_ok.mp h
  cases h
  exact eachAt_namedAll nodes _ (Node.eachAt_iff.mpr (shape_readBlocks shape_at _ _ nodes hn))

end Markup

/-- Templates read from markup hold blocks. -/
theorem Template.ofMarkup_at {schema : Schema} {kind : TemplateKind} {type markup : String}
    {t : Template} (h : Template.ofMarkup schema kind type markup = .ok t) :
    t.kind = kind ∧ t.type = type ∧ Node.EachAt .block t.body := by
  obtain ⟨nodes, hn, h⟩ := bind_eq_ok.mp h
  obtain ⟨hkind, htype, bound, hbind, hanalyzes⟩ := ofNodes_eq_ok h
  have hat := Binding.eachAt_bindsAll (Binding.binds_bindRecord hbind)
    (Markup.read_at (mapError_eq_ok.mp hn))
  exact ⟨hkind, htype, Formulas.eachAt_analyzesAll hanalyzes hat⟩

end ClauseTemplates
