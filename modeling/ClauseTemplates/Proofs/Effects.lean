namespace ClauseTemplates

variable {ε σ α β γ : Type}

theorem bind_eq_ok {x : Except ε α} {f : α → Except ε β} {b : β} :
    x >>= f = .ok b ↔ ∃ a, x = .ok a ∧ f a = .ok b := by
  cases x with
  | error e =>
    constructor
    · rintro ⟨⟩
    · rintro ⟨_, ⟨⟩, _⟩
  | ok a =>
    constructor
    · exact fun h => ⟨a, rfl, h⟩
    · rintro ⟨_, ⟨⟩, h⟩
      exact h

theorem bind_eq_error {x : Except ε α} {f : α → Except ε β} {e : ε} :
    x >>= f = .error e ↔ x = .error e ∨ ∃ a, x = .ok a ∧ f a = .error e := by
  cases x with
  | error d =>
    constructor
    · rintro ⟨⟩
      exact Or.inl rfl
    · rintro (⟨⟨⟩⟩ | ⟨_, ⟨⟩, _⟩)
      rfl
  | ok a =>
    constructor
    · exact fun h => Or.inr ⟨a, rfl, h⟩
    · rintro (⟨⟨⟩⟩ | ⟨_, ⟨⟩, h⟩)
      exact h

theorem map_eq_ok {x : Except ε α} {f : α → β} {b : β} :
    x.map f = .ok b ↔ ∃ a, x = .ok a ∧ f a = b := by
  cases x <;> simp [Except.map]

theorem map_eq_error {x : Except ε α} {f : α → β} {e : ε} : x.map f = .error e ↔ x = .error e := by
  cases x <;> simp [Except.map]

theorem mapError_eq_ok {x : Except ε α} {f : ε → γ} {a : α} :
    x.mapError f = .ok a ↔ x = .ok a := by
  cases x with
  | error e => constructor <;> rintro ⟨⟩
  | ok b =>
    constructor
    · rintro ⟨⟩
      rfl
    · rintro ⟨⟩
      rfl

/-- To find out whether an action succeeds, it is enough to run it. -/
theorem exists_ok_of_isOk {act : ExceptT ε (StateM σ) α} {s : σ} (h : (act.run s).1.isOk = true) :
    ∃ a s', act.run s = (.ok a, s') := by
  rcases hrun : act.run s with ⟨_ | a, s'⟩
  · rw [hrun] at h
    cases h
  · exact ⟨a, s', rfl⟩

/-- The action succeeds with a value and leaves a state behind. -/
def Yields (act : ExceptT ε (StateM σ) α) (s : σ) (a : α) (s' : σ) : Prop :=
  act.run s = (.ok a, s')

theorem yields_pure {a b : α} {s s' : σ} :
    Yields (pure a : ExceptT ε (StateM σ) α) s b s' ↔ b = a ∧ s' = s := by
  constructor
  · intro h
    cases h
    exact ⟨rfl, rfl⟩
  · rintro ⟨rfl, rfl⟩
    rfl

theorem run_bind (act : ExceptT ε (StateM σ) α) (f : α → ExceptT ε (StateM σ) β) (s : σ) :
    (act >>= f).run s =
      match act.run s with
      | (.ok a, t) => (f a).run t
      | (.error e, t) => (.error e, t) := by
  change StateT.bind (ExceptT.run act) (ExceptT.bindCont f) s = _
  unfold StateT.bind
  change (match act.run s with | (a, t) => ExceptT.bindCont f a t) = _
  rcases act.run s with ⟨_ | _, _⟩ <;> rfl

theorem run_modify (f : σ → σ) (s : σ) :
    (modify f : ExceptT ε (StateM σ) PUnit).run s = (.ok (), f s) := rfl

theorem run_get_bind (f : σ → ExceptT ε (StateM σ) α) (s : σ) : (get >>= f).run s = (f s).run s := rfl

theorem run_tryCatch (act : ExceptT ε (StateM σ) α) (f : ε → ExceptT ε (StateM σ) α) (s : σ) :
    (tryCatch act f).run s =
      match act.run s with
      | (.ok a, t) => (.ok a, t)
      | (.error e, t) => (f e).run t := by
  change StateT.bind (ExceptT.run act)
    (fun r => match r with | .ok a => pure (.ok a) | .error e => f e) s = _
  unfold StateT.bind
  change (match act.run s with
    | (r, t) => (match r with | .ok a => pure (.ok a) | .error e => f e : StateM σ (Except ε α)) t)
      = _
  rcases act.run s with ⟨_ | _, _⟩ <;> rfl

theorem yields_bind {act : ExceptT ε (StateM σ) α} {f : α → ExceptT ε (StateM σ) β} {s s' : σ}
    {b : β} : Yields (act >>= f) s b s' ↔ ∃ a t, Yields act s a t ∧ Yields (f a) t b s' := by
  unfold Yields
  rw [run_bind]
  rcases act.run s with ⟨e | a, t⟩
  · constructor
    · rintro ⟨⟩
    · rintro ⟨_, _, ⟨⟩, _⟩
  · constructor
    · intro h
      exact ⟨a, t, rfl, h⟩
    · rintro ⟨_, _, ⟨⟩, h⟩
      exact h

theorem not_yields_throw {e : ε} {s s' : σ} {a : α} :
    ¬ Yields (throw e : ExceptT ε (StateM σ) α) s a s' := by
  rintro ⟨⟩

theorem yields_get {s s' t : σ} :
    Yields (get : ExceptT ε (StateM σ) σ) s t s' ↔ t = s ∧ s' = s := by
  constructor
  · intro h
    cases h
    exact ⟨rfl, rfl⟩
  · rintro ⟨rfl, rfl⟩
    rfl

theorem yields_set {s s' t : σ} {u : PUnit} :
    Yields (set t : ExceptT ε (StateM σ) PUnit) s u s' ↔ s' = t := by
  constructor
  · intro h
    cases h
    rfl
  · rintro rfl
    rfl

theorem yields_modify {f : σ → σ} {s s' : σ} {u : PUnit} :
    Yields (modify f : ExceptT ε (StateM σ) PUnit) s u s' ↔ s' = f s := by
  constructor
  · intro h
    cases h
    rfl
  · rintro rfl
    rfl

/-- Wherever the action succeeds, it does so with this value and keeps what holds of the state. -/
def Makes (Good : σ → Prop) (act : ExceptT ε (StateM σ) α) (a : α) : Prop :=
  ∀ s b s', Good s → Yields act s b s' → b = a ∧ Good s'

theorem makes_pure {Good : σ → Prop} (a : α) :
    Makes Good (pure a : ExceptT ε (StateM σ) α) a := by
  intro s b s' hs h
  obtain ⟨rfl, rfl⟩ := yields_pure.mp h
  exact ⟨rfl, hs⟩

theorem Makes.bind {Good : σ → Prop} {act : ExceptT ε (StateM σ) α}
    {f : α → ExceptT ε (StateM σ) β} {a : α} {b : β} (ha : Makes Good act a)
    (hf : Makes Good (f a) b) : Makes Good (act >>= f) b := by
  intro s b' s' hs h
  obtain ⟨a', t, h1, h2⟩ := yields_bind.mp h
  obtain ⟨rfl, ht⟩ := ha s a' t hs h1
  exact hf t b' s' ht h2

theorem Makes.get_bind {Good : σ → Prop} {f : σ → ExceptT ε (StateM σ) β} {b : β}
    (hf : ∀ s, Good s → Makes Good (f s) b) : Makes Good (get >>= f) b := by
  intro s b' s' hs h
  obtain ⟨a, t, h1, h2⟩ := yields_bind.mp h
  obtain ⟨rfl, rfl⟩ := yields_get.mp h1
  exact hf t hs t b' s' hs h2

/-- The action succeeds with this value and keeps what holds of the state. -/
def Always (Good : σ → Prop) (act : ExceptT ε (StateM σ) α) (a : α) : Prop :=
  ∀ s, Good s → ∃ s', Yields act s a s' ∧ Good s'

theorem always_pure {Good : σ → Prop} (a : α) :
    Always Good (pure a : ExceptT ε (StateM σ) α) a :=
  fun s hs => ⟨s, yields_pure.mpr ⟨rfl, rfl⟩, hs⟩

theorem Always.bind {Good : σ → Prop} {act : ExceptT ε (StateM σ) α}
    {f : α → ExceptT ε (StateM σ) β} {a : α} {b : β} (ha : Always Good act a)
    (hf : Always Good (f a) b) : Always Good (act >>= f) b := by
  intro s hs
  obtain ⟨t, h1, ht⟩ := ha s hs
  obtain ⟨s', h2, hs'⟩ := hf t ht
  exact ⟨s', yields_bind.mpr ⟨a, t, h1, h2⟩, hs'⟩

theorem Always.get_bind {Good : σ → Prop} {f : σ → ExceptT ε (StateM σ) β} {b : β}
    (hf : ∀ s, Good s → Always Good (f s) b) : Always Good (get >>= f) b := by
  intro s hs
  obtain ⟨s', h, hs'⟩ := hf s hs s hs
  exact ⟨s', yields_bind.mpr ⟨s, s, yields_get.mpr ⟨rfl, rfl⟩, h⟩, hs'⟩

theorem Always.makes {Good : σ → Prop} {act : ExceptT ε (StateM σ) α} {a : α}
    (h : Always Good act a) : Makes Good act a := by
  intro s b s' hs hb
  obtain ⟨t, ha, ht⟩ := h s hs
  have heq := ha.symm.trans hb
  cases heq
  exact ⟨rfl, ht⟩

/-- The action succeeds exactly where there is a result, with a value seen as this result, and
keeps what holds of the state in either case. -/
def Agrees (Good : σ → Prop) (act : ExceptT ε (StateM σ) α) (view : α → β)
    (result : Option β) : Prop :=
  ∀ s, Good s → Good (act.run s).2 ∧
    match (act.run s).1 with
    | .ok a => result = some (view a)
    | .error _ => result = none

theorem agrees_pure {Good : σ → Prop} (a : α) (view : α → β) :
    Agrees Good (pure a : ExceptT ε (StateM σ) α) view (some (view a)) :=
  fun _ hs => ⟨hs, rfl⟩

theorem agrees_throw {Good : σ → Prop} (e : ε) (view : α → β) :
    Agrees Good (throw e : ExceptT ε (StateM σ) α) view none :=
  fun _ hs => ⟨hs, rfl⟩

theorem Agrees.bind {Good : σ → Prop} {act : ExceptT ε (StateM σ) α}
    {f : α → ExceptT ε (StateM σ) γ} {view : α → β} {view' : γ → δ} {result : Option β}
    {g : β → Option δ} (ha : Agrees Good act view result)
    (hf : ∀ a, Agrees Good (f a) view' (g (view a))) :
    Agrees Good (act >>= f) view' (result.bind g) := by
  intro s hs
  obtain ⟨ht, hr⟩ := ha s hs
  rw [run_bind]
  rcases hact : act.run s with ⟨e | a, t⟩
  · rw [hact] at hr ht
    exact ⟨ht, by rw [hr]; rfl⟩
  · rw [hact] at hr ht
    rw [hr]
    exact hf a t ht

theorem Agrees.map {Good : σ → Prop} {act : ExceptT ε (StateM σ) α} {f : α → γ} {view : α → β}
    {view' : γ → δ} {result : Option β} {g : β → δ} (ha : Agrees Good act view result)
    (hf : ∀ a, view' (f a) = g (view a)) :
    Agrees Good (act >>= fun a => pure (f a)) view' (result.map g) := by
  rw [Option.map_eq_bind]
  refine ha.bind fun a => ?_
  rw [Function.comp_apply, ← hf]
  exact agrees_pure _ _

theorem Agrees.before {Good : σ → Prop} {act : ExceptT ε (StateM σ) γ}
    {next : ExceptT ε (StateM σ) α} {view : α → β} {result : Option β}
    (ha : Agrees Good act (fun _ => ()) (some ())) (hn : Agrees Good next view result) :
    Agrees Good (act >>= fun _ => next) view result :=
  ha.bind (g := fun _ => result) fun _ => hn

theorem Agrees.get_bind {Good : σ → Prop} {f : σ → ExceptT ε (StateM σ) α} {view : α → β}
    {result : Option β} (hf : ∀ s, Good s → Agrees Good (f s) view result) :
    Agrees Good (get >>= f) view result :=
  fun s hs => hf s hs s hs

/-- What fails instead of an action with no result makes no difference. -/
theorem Agrees.tryCatch {Good : σ → Prop} {act : ExceptT ε (StateM σ) α} {view : α → β}
    {result : Option β} {f : ε → ExceptT ε (StateM σ) γ} {g : α → ExceptT ε (StateM σ) γ}
    {view' : γ → δ} {d : δ} (ha : Agrees Good act view result)
    (hg : ∀ a, Agrees Good (g a) view' (some d)) (hf : ∀ e, Agrees Good (f e) view' (some d)) :
    Agrees Good (tryCatch (act >>= g) f) view' (some d) := by
  intro s hs
  obtain ⟨ht, -⟩ := ha s hs
  rw [run_tryCatch, run_bind]
  rcases hact : act.run s with ⟨e | a, t⟩
  · rw [hact] at ht
    exact hf e t ht
  · rw [hact] at ht
    obtain ⟨hu, hr⟩ := hg a t ht
    dsimp only
    rcases hga : (g a).run t with ⟨e | b, u⟩
    · rw [hga] at hr
      cases hr
    · rw [hga] at hr hu
      exact ⟨hu, hr⟩

theorem Agrees.of_yields {Good : σ → Prop} {act : ExceptT ε (StateM σ) α} {view : α → β}
    {result : Option β} (h : Agrees Good act view result) {s s' : σ} {a : α} (hs : Good s)
    (hy : Yields act s a s') : result = some (view a) ∧ Good s' := by
  obtain ⟨hg, hr⟩ := h s hs
  rw [show act.run s = (.ok a, s') from hy] at hg hr
  exact ⟨hr, hg⟩

theorem Agrees.yields {Good : σ → Prop} {act : ExceptT ε (StateM σ) α} {view : α → β} {b : β}
    (h : Agrees Good act view (some b)) {s : σ} (hs : Good s) :
    ∃ a s', Yields act s a s' ∧ view a = b ∧ Good s' := by
  obtain ⟨hg, hr⟩ := h s hs
  rcases hact : act.run s with ⟨e | a, t⟩
  · rw [hact] at hr
    cases hr
  · rw [hact] at hr hg
    exact ⟨a, t, hact, (Option.some.inj hr).symm, hg⟩

/-- Whatever comes of it, the action leads from a state to a related one. -/
def Moves (R : σ → σ → Prop) (act : ExceptT ε (StateM σ) α) : Prop := ∀ s, R s (act.run s).2

theorem moves_pure {R : σ → σ → Prop} (hrefl : ∀ s, R s s) (a : α) :
    Moves R (pure a : ExceptT ε (StateM σ) α) :=
  fun s => hrefl s

theorem moves_throw {R : σ → σ → Prop} (hrefl : ∀ s, R s s) (e : ε) :
    Moves R (throw e : ExceptT ε (StateM σ) α) :=
  fun s => hrefl s

theorem Moves.bind {R : σ → σ → Prop} (htrans : ∀ s t u, R s t → R t u → R s u)
    {act : ExceptT ε (StateM σ) α} {f : α → ExceptT ε (StateM σ) β} (ha : Moves R act)
    (hf : ∀ a, Moves R (f a)) : Moves R (act >>= f) := by
  intro s
  have hact := ha s
  rw [run_bind]
  rcases h : act.run s with ⟨e | a, t⟩
  · rw [h] at hact
    exact hact
  · rw [h] at hact
    exact htrans _ _ _ hact (hf a t)

/-- From the states where something holds both actions do the same, and it still holds after them. -/
def Same (Good : σ → Prop) (x y : ExceptT ε (StateM σ) α) : Prop :=
  ∀ s, Good s → x.run s = y.run s ∧ Good (x.run s).2

theorem same_refl {Good : σ → Prop} {x : ExceptT ε (StateM σ) α}
    (h : ∀ s, Good s → Good (x.run s).2) : Same Good x x :=
  fun s hs => ⟨rfl, h s hs⟩

theorem same_pure {Good : σ → Prop} (a : α) :
    Same Good (pure a : ExceptT ε (StateM σ) α) (pure a) :=
  fun _ hs => ⟨rfl, hs⟩

theorem Same.bind {Good : σ → Prop} {x y : ExceptT ε (StateM σ) α}
    {f g : α → ExceptT ε (StateM σ) β} (hx : Same Good x y) (hf : ∀ a, Same Good (f a) (g a)) :
    Same Good (x >>= f) (y >>= g) := by
  intro s hs
  obtain ⟨heq, hgood⟩ := hx s hs
  rw [run_bind, run_bind, ← heq]
  rcases h : x.run s with ⟨e | a, t⟩
  · rw [h] at hgood
    exact ⟨rfl, hgood⟩
  · rw [h] at hgood
    exact hf a t hgood

theorem Same.tryCatch {Good : σ → Prop} {x y : ExceptT ε (StateM σ) α}
    {f g : ε → ExceptT ε (StateM σ) α} (hx : Same Good x y) (hf : ∀ e, Same Good (f e) (g e)) :
    Same Good (tryCatch x f) (tryCatch y g) := by
  intro s hs
  obtain ⟨heq, hgood⟩ := hx s hs
  rw [run_tryCatch, run_tryCatch, ← heq]
  rcases h : x.run s with ⟨e | a, t⟩
  · rw [h] at hgood
    exact hf e t hgood
  · rw [h] at hgood
    exact ⟨rfl, hgood⟩

/-- From the states where something holds it still holds afterwards, and what comes out, a value or an
error, has a property. -/
def Ensures (Good : σ → Prop) (P : α → Prop) (Q : ε → Prop) (act : ExceptT ε (StateM σ) α) : Prop :=
  ∀ s, Good s → Good (act.run s).2 ∧ (∀ a, (act.run s).1 = .ok a → P a) ∧
    ∀ e, (act.run s).1 = .error e → Q e

section

variable {Good : σ → Prop} {P : α → Prop} {P' : β → Prop} {Q : ε → Prop}

theorem ensures_pure {a : α} (h : P a) : Ensures Good P Q (pure a : ExceptT ε (StateM σ) α) := by
  intro s hs
  refine ⟨hs, ?_, nofun⟩
  rintro _ ⟨⟩
  exact h

theorem ensures_throw {e : ε} (he : Q e) : Ensures Good P Q (throw e : ExceptT ε (StateM σ) α) := by
  intro s hs
  refine ⟨hs, nofun, ?_⟩
  rintro _ ⟨⟩
  exact he

theorem Ensures.bind {act : ExceptT ε (StateM σ) α} {f : α → ExceptT ε (StateM σ) β}
    (ha : Ensures Good P Q act) (hf : ∀ a, P a → Ensures Good P' Q (f a)) : Ensures Good P' Q (act >>= f) := by
  intro s hs
  obtain ⟨ht, hok, herror⟩ := ha s hs
  rw [run_bind]
  rcases h : act.run s with ⟨e | a, t⟩
  · rw [h] at ht herror
    refine ⟨ht, nofun, ?_⟩
    rintro _ ⟨⟩
    exact herror e rfl
  · rw [h] at ht hok
    exact hf a (hok a rfl) t ht

theorem Ensures.tryCatch {act : ExceptT ε (StateM σ) α} {handler : ε → ExceptT ε (StateM σ) α}
    {Q' : ε → Prop} (ha : Ensures Good P Q act) (hh : ∀ e, Q e → Ensures Good P Q' (handler e)) :
    Ensures Good P Q' (tryCatch act handler) := by
  intro s hs
  obtain ⟨ht, hok, herror⟩ := ha s hs
  rw [run_tryCatch]
  rcases h : act.run s with ⟨e | a, t⟩
  · rw [h] at ht herror
    exact hh e (herror e rfl) t ht
  · rw [h] at ht hok
    refine ⟨ht, ?_, nofun⟩
    rintro _ ⟨⟩
    exact hok a rfl

theorem Ensures.get_bind {f : σ → ExceptT ε (StateM σ) α} (hf : ∀ s, Good s → Ensures Good P Q (f s)) :
    Ensures Good P Q (get >>= f) :=
  fun s hs => hf s hs s hs

end

/-- From the states where something holds it still holds afterwards, and no other errors than these
come out. -/
def Safe (Good : σ → Prop) (Fine : ε → Prop) (act : ExceptT ε (StateM σ) α) : Prop :=
  ∀ s, Good s → Good (act.run s).2 ∧ ∀ e, (act.run s).1 = .error e → Fine e

section

variable {Good : σ → Prop} {Fine : ε → Prop}

theorem safe_iff_ensures {act : ExceptT ε (StateM σ) α} :
    Safe Good Fine act ↔ Ensures Good (fun _ => True) Fine act := by
  simp only [Safe, Ensures, implies_true, true_and]

theorem safe_pure (a : α) : Safe Good Fine (pure a : ExceptT ε (StateM σ) α) :=
  safe_iff_ensures.mpr (ensures_pure trivial)

theorem safe_throw {e : ε} (he : Fine e) : Safe Good Fine (throw e : ExceptT ε (StateM σ) α) :=
  safe_iff_ensures.mpr (ensures_throw he)

theorem Safe.bind {act : ExceptT ε (StateM σ) α} {f : α → ExceptT ε (StateM σ) β}
    (ha : Safe Good Fine act) (hf : ∀ a, Safe Good Fine (f a)) : Safe Good Fine (act >>= f) :=
  safe_iff_ensures.mpr ((safe_iff_ensures.mp ha).bind fun a _ => safe_iff_ensures.mp (hf a))

theorem Safe.tryCatch {act : ExceptT ε (StateM σ) α} {handler : ε → ExceptT ε (StateM σ) α}
    (ha : Safe Good Fine act) (hh : ∀ e, Safe Good Fine (handler e)) :
    Safe Good Fine (tryCatch act handler) :=
  safe_iff_ensures.mpr ((safe_iff_ensures.mp ha).tryCatch fun e _ => safe_iff_ensures.mp (hh e))

theorem Safe.get_bind {f : σ → ExceptT ε (StateM σ) α} (hf : ∀ s, Good s → Safe Good Fine (f s)) :
    Safe Good Fine (get >>= f) :=
  fun s hs => hf s hs s hs

theorem safe_get : Safe Good Fine (get : ExceptT ε (StateM σ) σ) := by
  intro s hs
  refine ⟨hs, ?_⟩
  rintro e ⟨⟩

end

/-- From the states where something holds the action succeeds, and it still holds afterwards. -/
def Succeeds (Good : σ → Prop) (act : ExceptT ε (StateM σ) α) : Prop :=
  ∀ s, Good s → ∃ a s', Yields act s a s' ∧ Good s'

theorem succeeds_pure {Good : σ → Prop} (a : α) :
    Succeeds Good (pure a : ExceptT ε (StateM σ) α) :=
  fun s hs => ⟨a, s, rfl, hs⟩

theorem Succeeds.bind {Good : σ → Prop} {act : ExceptT ε (StateM σ) α}
    {f : α → ExceptT ε (StateM σ) β} (ha : Succeeds Good act) (hf : ∀ a, Succeeds Good (f a)) :
    Succeeds Good (act >>= f) := by
  intro s hs
  obtain ⟨a, t, hact, ht⟩ := ha s hs
  obtain ⟨b, u, hfa, hu⟩ := hf a t ht
  exact ⟨b, u, yields_bind.mpr ⟨a, t, hact, hfa⟩, hu⟩

end ClauseTemplates
