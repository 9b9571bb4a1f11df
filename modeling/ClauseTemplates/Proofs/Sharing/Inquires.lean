import ClauseTemplates.Proofs.Drafting.Logic
import ClauseTemplates.Proofs.Drafting.Texts
import ClauseTemplates.Proofs.Grammar.Steady
import ClauseTemplates.Proofs.Sharing.Inquiry

namespace ClauseTemplates

section

variable {ε σ τ α β : Type} {put : Table → τ → σ}

/-- All that the action has to do with the cells of the table is to request entries: from the rest
of the state it makes an inquiry, which does the same as the action whatever the cells hold. -/
def Inquires (put : Table → τ → σ) (act : ExceptT ε (StateM σ) α) : Prop :=
  ∀ schema settings rest, ∃ q : Inquiry (Except ε α × τ), ∀ table : Table, table.schema = schema →
    table.settings = settings →
    act.run (put table rest) = ((q.run table).1.1, put (q.run table).2 (q.run table).1.2)

theorem inquires_pure (a : α) : Inquires put (pure a : ExceptT ε (StateM σ) α) :=
  fun _ _ rest => ⟨.done (.ok a, rest), fun _ _ _ => rfl⟩

theorem inquires_throw (e : ε) : Inquires put (throw e : ExceptT ε (StateM σ) α) :=
  fun _ _ rest => ⟨.done (.error e, rest), fun _ _ _ => rfl⟩

/-- The inquiry that goes on with an outcome. -/
def Inquiry.after (next : α → τ → Inquiry β) (onError : ε → τ → Inquiry β) :
    Except ε α × τ → Inquiry β
  | (.ok a, rest) => next a rest
  | (.error e, rest) => onError e rest

/-- What is made of the outcome of an inquiry, by inquiries of their own. -/
theorem Inquires.handle {act : ExceptT ε (StateM σ) α} {act' : ExceptT ε (StateM σ) β}
    {ok : α → ExceptT ε (StateM σ) β} {error : ε → ExceptT ε (StateM σ) β}
    (ha : Inquires put act) (hok : ∀ a, Inquires put (ok a)) (herror : ∀ e, Inquires put (error e))
    (h : ∀ s, act'.run s = match act.run s with
      | (.ok a, t) => (ok a).run t
      | (.error e, t) => (error e).run t) :
    Inquires put act' := by
  intro schema settings rest
  obtain ⟨q, hq⟩ := ha schema settings rest
  choose next hnext using fun a => hok a schema settings
  choose onError honError using fun e => herror e schema settings
  refine ⟨q.bind (Inquiry.after next onError), ?_⟩
  intro table hschema hsettings
  have hkept := q.kept_run table
  have hschema' := hkept.schema.trans hschema
  have hsettings' := hkept.settings.trans hsettings
  rw [h, hq table hschema hsettings, Inquiry.run_bind]
  rcases hrun : q.run table with ⟨⟨e | a, rest'⟩, table'⟩
  · rw [hrun] at hschema' hsettings'
    exact honError e rest' table' hschema' hsettings'
  · rw [hrun] at hschema' hsettings'
    exact hnext a rest' table' hschema' hsettings'

theorem Inquires.bind {act : ExceptT ε (StateM σ) α} {f : α → ExceptT ε (StateM σ) β}
    (ha : Inquires put act) (hf : ∀ a, Inquires put (f a)) : Inquires put (act >>= f) := by
  apply ha.handle hf inquires_throw
  intro s
  rw [run_bind]
  rcases act.run s with ⟨_ | _, _⟩ <;> rfl

theorem Inquires.tryCatch {act : ExceptT ε (StateM σ) α} {f : ε → ExceptT ε (StateM σ) α}
    (ha : Inquires put act) (hf : ∀ e, Inquires put (f e)) : Inquires put (tryCatch act f) := by
  apply ha.handle inquires_pure hf
  intro s
  rw [run_tryCatch]
  rcases act.run s with ⟨_ | _, _⟩ <;> rfl

/-- The state may be read, except for the cells. -/
theorem inquires_read {f : σ → ExceptT ε (StateM σ) α}
    (hf : ∀ s, Inquires put (f s))
    (hput : ∀ table table' rest, table.schema = table'.schema → table.settings = table'.settings →
      f (put table rest) = f (put table' rest)) :
    Inquires put (get >>= f) := by
  intro schema settings rest
  obtain ⟨q, hq⟩ := hf (put (.empty schema settings) rest) schema settings rest
  refine ⟨q, fun table hschema hsettings => ?_⟩
  rw [run_get_bind, hput table (.empty schema settings) rest hschema hsettings]
  exact hq table hschema hsettings

end

namespace Compiling

/-- The state of a compiler but for the table. -/
structure Progress where
  nesting : List Nesting
  inProgress : List String
  compounds : Grammar.Compounds

def Progress.put (table : Table) (p : Progress) : CompileState :=
  ⟨table, p.nesting, p.inProgress, p.compounds⟩

open Progress

theorem inquires_entry (key : EntryKey) : Inquires put (entry key) := by
  intro schema settings rest
  refine ⟨.ask key fun answer => .done (answer, rest), fun table _ _ => ?_⟩
  rw [run_entry]
  rfl

theorem inquires_inside {act : Compiling α} (k : Nesting) (h : Inquires put act) :
    Inquires put (inside k act) := by
  intro schema settings rest
  obtain ⟨q, hq⟩ := h schema settings { rest with nesting := rest.nesting ++ [k] }
  refine ⟨q.map fun outcome => (outcome.1,
    { outcome.2 with nesting := outcome.2.nesting.dropLast }), fun table hschema hsettings => ?_⟩
  have hrun := hq table hschema hsettings
  unfold put at hrun ⊢
  rw [run_inside, hrun, Inquiry.run_map]

/-- Compilers make inquiries. -/
def inquires : Logic where
  types _ := True
  keys _ := True
  entries _ _ := True
  Holds _ x _ := Inquires put x
  pure := inquires_pure
  bind := Inquires.bind
  unbound _ name _ := inquires_throw (EntryError.unbound name)
  margin := inquires_read (fun s => inquires_pure (s.nesting.flatMap Nesting.margin))
    fun _ _ _ _ _ => rfl
  elementType type := inquires_read
    (fun s => inquires_pure (if s.table.schema.isCompound type then some type else none))
    fun _ _ _ hschema _ => by
      unfold put
      dsimp only
      rw [hschema]
  settings h := inquires_read (fun s => h s.table.settings)
    fun _ _ _ _ hsettings => by simp only [put, hsettings]
  inside := inquires_inside
  entry _ h := (inquires_entry _).bind fun e => h e trivial

theorem inquires_fits (n : Node) : inquires.Fits n := by
  cases n <;> exact trivial

variable {kind : TemplateKind}

theorem inquires_recordBody {inner : String → List Node → Compiling Unit} {type : String}
    {children : List Node} (h : Inquires put (inlines kind inner children)) :
    Inquires put (recordBody kind inner type children) := by
  intro schema settings rest
  cases hknown : (put (.empty schema settings) rest).known type with
  | true =>
    refine ⟨.done (.ok (), rest), fun table _ _ => ?_⟩
    exact run_recordBody_known hknown
  | false =>
    obtain ⟨q, hq⟩ := h schema settings { rest with inProgress := type :: rest.inProgress }
    let closed (p : Progress) : Progress := { p with inProgress := p.inProgress.erase type }
    refine ⟨q.map fun outcome => match outcome with
      | (.ok body, p) => (.ok (), { closed p with
          compounds := (type, .record type none body) :: p.compounds })
      | (.error e, p) => (.error e, closed p), fun table hschema hsettings => ?_⟩
    have hrun : (inlines kind inner children).run ((put table rest).opened type) = _ :=
      hq table hschema hsettings
    rw [run_recordBody_new (s := put table rest) hknown, hrun, Inquiry.run_map]
    rcases q.run table with ⟨⟨_ | _, _⟩, _⟩ <;> rfl

theorem inquires_compound (fuel : Nat) :
    ∀ type children, Inquires put (compound kind fuel type children) := by
  rw [compound_eq_levels]
  generalize hbeyond : (fun type _ => throw (EntryError.unknownParser type) :
    String → List Node → Compiling Unit) = beyond
  induction fuel with
  | zero =>
    intro type _
    subst hbeyond
    exact inquires_throw (EntryError.unknownParser type)
  | succ fuel ih =>
    intro type children
    have hc (key : EntryKey) (type : String) (children : List Node) (_ : inquires.keys key)
        (_ : inquires.entries key (.compound type children)) :
        inquires.Holds [key] (levels kind beyond fuel type children)
          (levels kind beyond fuel type children) :=
      ih type children
    exact inquires_recordBody (inquires.inlines kind hc children
      (Node.everyAll_of_forall inquires_fits children) fun _ _ => trivial)

end Compiling

namespace Drafting

def put (table : Table) (identifiers : Nat) : DraftState := ⟨table, identifiers⟩

theorem inquires_entry (key : EntryKey) : Inquires put (entry key) := by
  intro schema settings rest
  refine ⟨.ask key fun answer => .done (answer.mapError Error.registry, rest), fun table _ _ => ?_⟩
  rw [run_entry]
  rfl

theorem inquires_freshIdentifier : Inquires put freshIdentifier :=
  fun _ _ rest => ⟨.done (.ok (.str (Identifier.numbered rest)), rest + 1), fun _ _ _ => rfl⟩

/-- Drafters make inquiries. -/
def inquires : Logic where
  Fits _ := True
  entries _ _ := True
  Holds x _ := Inquires put x
  pure := inquires_pure
  bind := Inquires.bind
  fail e := inquires_throw (Error.draft e)
  unbound v _ _ := inquires_throw (Error.registry (.unbound v.name))
  unread _ _ _ := inquires_throw _
  freshIdentifier := inquires_freshIdentifier
  ignored h := (h.bind fun _ => inquires_pure ()).tryCatch fun _ => inquires_pure ()
  schema h := inquires_read (fun s => h s.table.schema)
    fun _ _ _ hschema _ => by simp only [put, hschema]
  settings h := inquires_read (fun s => h s.table.settings)
    fun _ _ _ _ hsettings => by simp only [put, hsettings]
  entry _ _ _ h := (inquires_entry _).bind fun e => h e trivial

theorem inquires_nodes {compound : String → List Node → Json → Drafting (List Doc)}
    (context : DraftContext)
    (hcompound : ∀ type children value, Inquires put (compound type children value))
    (ns : List Node) (scope : Json) : Inquires put (nodes context compound ns scope) := by
  have hc (key : EntryKey) (type : String) (children : List Node) (value : Json)
      (_ : inquires.entries key (.compound type children)) :
      inquires.Holds (compound type children value) (compound type children value) :=
    hcompound type children value
  exact inquires.nodes context hc ns scope (Node.everyAll_of_forall (fun _ => trivial) ns)

theorem inquires_compound (context : DraftContext) (fuel : Nat) :
    ∀ type children value, Inquires put (compound context fuel type children value) := by
  induction fuel with
  | zero => exact fun type _ _ => inquires_throw (Error.registry (.unknownParser type))
  | succ fuel ih =>
    intro type children value
    exact inquires_nodes context ih children value

end Drafting

namespace Template

variable (t : Template)

theorem inquires_compile : Inquires Compiling.Progress.put t.compile := by
  unfold compile
  refine inquires_read (fun s => ?_) fun table table' rest hschema hsettings => ?_
  swap
  · simp only [Compiling.Progress.put, identifier, hschema, hsettings]
  let compound := Compiling.compound t.kind (s.table.schema.declarations.length + 1)
  have hc (key : EntryKey) (type : String) (children : List Node) (_ : Compiling.inquires.keys key)
      (_ : Compiling.inquires.entries key (.compound type children)) :
      Compiling.inquires.Holds [key] (compound type children) (compound type children) :=
    Compiling.inquires_compound _ type children
  have hblocks := Compiling.inquires.eachBlock t.kind hc t.body
    (Node.everyAll_of_forall Compiling.inquires_fits t.body) fun _ _ => trivial
  exact Compiling.inquires.map (Compiling.Logic.inBlocks hblocks) _

theorem inquires_draft (data : Json) (now : Instant) : Inquires Drafting.put (t.draft data now) := by
  have hshown : Inquires Drafting.put (do
      let table := (← get).table
      let docs ← Drafting.nodes ⟨data, now, t.kind⟩
        (Drafting.compound ⟨data, now, t.kind⟩ (Drafting.levels table.schema data)) t.body data
      let record ← Drafting.record data (some t.type) (t.identifier table.settings)
      pure (Doc.node (.document (some record)) docs)) := by
    refine inquires_read (fun s => ?_) fun table table' rest hschema hsettings => ?_
    swap
    · simp only [Drafting.put, identifier, hschema, hsettings]
    let context : DraftContext := ⟨data, now, t.kind⟩
    have hnodes := Drafting.inquires_nodes context
      (Drafting.inquires_compound context (Drafting.levels s.table.schema data)) t.body data
    refine hnodes.bind fun docs => ?_
    exact Drafting.inquires.map (Drafting.inquires.record data t.type (t.identifier s.table.settings)) _
  unfold draft
  split_ifs
  · exact (inquires_throw (Error.draft _)).bind fun _ => hshown
  · exact hshown

end Template

end ClauseTemplates
