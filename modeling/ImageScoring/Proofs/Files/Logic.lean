import ImageScoring.Files.Action

/-!
# A logic for file operations

`Ensures P action Q E` says of an action on a disk: begun on a disk with `P`, it leaves one with `Q`
if it succeeds, which may speak of its answer, and one with `E` if it fails, which may speak of the
error. There is a rule for every way in which actions are put together.
-/

namespace ImageScoring.DiskAction

variable {ε ε' α β : Type} {d d' : Disk} {action : DiskAction ε α}

/-! ### How actions that are put together run -/

theorem run_bind_of_ok {next : α → DiskAction ε β} {x : α} (h : action.run d = (.ok x, d')) :
    (action >>= next).run d = (next x).run d' := by
  change (match action.run d with | (a, d') => ExceptT.bindCont next a d') = _
  rw [h]
  rfl

theorem run_bind_of_error {next : α → DiskAction ε β} {e : ε}
    (h : action.run d = (.error e, d')) : (action >>= next).run d = (.error e, d') := by
  change (match action.run d with | (a, d') => ExceptT.bindCont next a d') = _
  rw [h]
  rfl

theorem run_tryCatch_of_ok {handle : ε → DiskAction ε α} {x : α}
    (h : action.run d = (.ok x, d')) : (tryCatch action handle).run d = (.ok x, d') := by
  change (match action.run d with
    | (a, d') => (match a with
      | .ok x => pure (.ok x)
      | .error e => (handle e).run : StateM Disk (Except ε α)) d') = _
  rw [h]
  rfl

theorem run_tryCatch_of_error {handle : ε → DiskAction ε α} {e : ε}
    (h : action.run d = (.error e, d')) : (tryCatch action handle).run d = (handle e).run d' := by
  change (match action.run d with
    | (a, d') => (match a with
      | .ok x => pure (.ok x)
      | .error e => (handle e).run : StateM Disk (Except ε α)) d') = _
  rw [h]

theorem run_adapt {f : ε → ε'} :
    (ExceptT.adapt f action).run d = ((action.run d).1.mapError f, (action.run d).2) :=
  rfl

theorem run_adapt_of_ok {f : ε → ε'} {x : α} (h : action.run d = (.ok x, d')) :
    (ExceptT.adapt f action).run d = (.ok x, d') := by
  rw [run_adapt, h]
  rfl

/-- Of two actions that succeed, the second one begins where the first one ends. -/
theorem exists_of_run_bind {d'' : Disk} {next : α → DiskAction ε β} {y : β}
    (h : (action >>= next).run d = (.ok y, d'')) :
    ∃ x d', action.run d = (.ok x, d') ∧ (next x).run d' = (.ok y, d'') := by
  rcases ha : action.run d with ⟨e | x, d'⟩
  · rw [run_bind_of_error ha] at h
    cases h
  · rw [run_bind_of_ok ha] at h
    exact ⟨x, d', rfl, h⟩

theorem run_of_run_adapt {f : ε → ε'} {x : α}
    (h : (ExceptT.adapt f action).run d = (.ok x, d')) : action.run d = (.ok x, d') := by
  rw [run_adapt] at h
  rcases ha : action.run d with ⟨e | y, d''⟩
  · rw [ha] at h
    cases h
  · rw [ha] at h
    cases h
    rfl

theorem run_look {view : Disk → Except ε α} :
    (Disk.look view : DiskAction ε α).run d = (view d, d) :=
  rfl

theorem run_get : (get : DiskAction ε Disk).run d = (.ok d, d) :=
  rfl

/-! ### What an action ensures -/

/-- Begun on a disk with `P`, the action leaves one with `Q`, or fails and leaves one with `E`. -/
def Ensures (P : Disk → Prop) (action : DiskAction ε α) (Q : α → Disk → Prop)
    (E : ε → Disk → Prop) : Prop :=
  ∀ d, P d → (∀ x d', action.run d = (.ok x, d') → Q x d') ∧
    ∀ e d', action.run d = (.error e, d') → E e d'

variable {P P' : Disk → Prop} {Q Q' : α → Disk → Prop} {R : β → Disk → Prop}
  {E E' : ε → Disk → Prop}

theorem Ensures.weaken (h : Ensures P action Q E) (hP : ∀ d, P' d → P d)
    (hQ : ∀ x d, Q x d → Q' x d) (hE : ∀ e d, E e d → E' e d) : Ensures P' action Q' E' := by
  intro d hd
  obtain ⟨hok, herror⟩ := h d (hP d hd)
  exact ⟨fun x d' hr => hQ x d' (hok x d' hr), fun e d' hr => hE e d' (herror e d' hr)⟩

theorem Ensures.of_pre (h : Ensures P action Q E) (hP : ∀ d, P' d → P d) :
    Ensures P' action Q E :=
  h.weaken hP (fun _ _ hq => hq) fun _ _ he => he

theorem Ensures.to_post (h : Ensures P action Q E) (hQ : ∀ x d, Q x d → Q' x d) :
    Ensures P action Q' E :=
  h.weaken (fun _ hp => hp) hQ fun _ _ he => he

theorem Ensures.and (h : Ensures P action Q E) (h' : Ensures P action Q' E') :
    Ensures P action (fun x d => Q x d ∧ Q' x d) (fun e d => E e d ∧ E' e d) := by
  intro d hd
  obtain ⟨hok, herror⟩ := h d hd
  obtain ⟨hok', herror'⟩ := h' d hd
  exact ⟨fun x d' hr => ⟨hok x d' hr, hok' x d' hr⟩,
    fun e d' hr => ⟨herror e d' hr, herror' e d' hr⟩⟩

/-- A fact that is not about the disk goes on holding. -/
theorem ensures_fact {R : Prop} :
    Ensures (fun _ => R) action (fun _ _ => R) (fun _ _ => True) :=
  fun _ hr => ⟨fun _ _ _ => hr, fun _ _ _ => trivial⟩

/-- What holds for some value may be taken to hold for a given one. -/
theorem ensures_exists {γ : Type} {P : γ → Disk → Prop} (h : ∀ x, Ensures (P x) action Q E) :
    Ensures (fun d => ∃ x, P x d) action Q E := by
  rintro d ⟨x, hx⟩
  exact h x d hx

theorem ensures_pure {x : α} (h : ∀ d, P d → Q x d) :
    Ensures P (pure x : DiskAction ε α) Q E := by
  intro d hd
  refine ⟨?_, ?_⟩
  · rintro y d' ⟨⟩
    exact h d hd
  · rintro e d' ⟨⟩

theorem ensures_throw {e : ε} (h : ∀ d, P d → E e d) :
    Ensures P (throw e : DiskAction ε α) Q E := by
  intro d hd
  refine ⟨?_, ?_⟩
  · rintro x d' ⟨⟩
  · rintro e' d' ⟨⟩
    exact h d hd

theorem ensures_look {view : Disk → Except ε α} (hok : ∀ d x, P d → view d = .ok x → Q x d)
    (herror : ∀ d e, P d → view d = .error e → E e d) : Ensures P (Disk.look view) Q E := by
  intro d hd
  refine ⟨?_, ?_⟩
  · rintro x d' hr
    obtain ⟨hv, rfl⟩ := Prod.mk.inj hr
    exact hok _ x hd hv
  · rintro e d' hr
    obtain ⟨hv, rfl⟩ := Prod.mk.inj hr
    exact herror _ e hd hv

theorem ensures_get {Q : Disk → Disk → Prop} (h : ∀ d, P d → Q d d) :
    Ensures P (get : DiskAction ε Disk) Q E := by
  intro d hd
  refine ⟨?_, ?_⟩
  · rintro x d' ⟨⟩
    exact h d hd
  · rintro e d' ⟨⟩

theorem ensures_modify {f : Disk → Disk} {Q : PUnit → Disk → Prop} (h : ∀ d, P d → Q ⟨⟩ (f d)) :
    Ensures P (modify f : DiskAction ε PUnit) Q E := by
  intro d hd
  refine ⟨?_, ?_⟩
  · rintro x d' ⟨⟩
    exact h d hd
  · rintro e d' ⟨⟩

theorem ensures_liftM {answer : Except ε α} (hok : ∀ d x, P d → answer = .ok x → Q x d)
    (herror : ∀ d e, P d → answer = .error e → E e d) :
    Ensures P (liftM answer : DiskAction ε α) Q E := by
  intro d hd
  refine ⟨?_, ?_⟩
  · rintro x d' hr
    obtain ⟨hv, rfl⟩ := Prod.mk.inj hr
    exact hok _ x hd hv
  · rintro e d' hr
    obtain ⟨hv, rfl⟩ := Prod.mk.inj hr
    exact herror _ e hd hv

theorem ensures_bind {next : α → DiskAction ε β} (h : Ensures P action Q E)
    (hnext : ∀ x, Ensures (Q x) (next x) R E) : Ensures P (action >>= next) R E := by
  intro d hd
  obtain ⟨hok, herror⟩ := h d hd
  rcases ha : action.run d with ⟨e | x, d'⟩
  · rw [run_bind_of_error ha]
    refine ⟨?_, ?_⟩
    · rintro y d'' ⟨⟩
    · rintro e' d'' ⟨⟩
      exact herror e d' ha
  · rw [run_bind_of_ok ha]
    exact hnext x d' (hok x d' ha)

/-- What an action tells of its answer alone may decide how to go on. -/
theorem ensures_bind_fact {next : α → DiskAction ε β} {F : α → Prop}
    (h : Ensures P action (fun x d => F x ∧ Q x d) E)
    (hnext : ∀ x, F x → Ensures (Q x) (next x) R E) : Ensures P (action >>= next) R E :=
  ensures_bind h fun x d hd => hnext x hd.1 d hd.2

theorem ensures_tryCatch {handle : ε → DiskAction ε α} (h : Ensures P action Q E)
    (hhandle : ∀ e, Ensures (E e) (handle e) Q E') : Ensures P (tryCatch action handle) Q E' := by
  intro d hd
  obtain ⟨hok, herror⟩ := h d hd
  rcases ha : action.run d with ⟨e | x, d'⟩
  · rw [run_tryCatch_of_error ha]
    exact hhandle e d' (herror e d' ha)
  · rw [run_tryCatch_of_ok ha]
    refine ⟨?_, ?_⟩
    · rintro y d'' ⟨⟩
      exact hok x d' ha
    · rintro e d'' ⟨⟩

theorem ensures_adapt {f : ε → ε'} {E' : ε' → Disk → Prop}
    (h : Ensures P action Q fun e d => E' (f e) d) : Ensures P (ExceptT.adapt f action) Q E' := by
  intro d hd
  obtain ⟨hok, herror⟩ := h d hd
  rw [run_adapt]
  rcases ha : action.run d with ⟨e | x, d'⟩
  · refine ⟨?_, ?_⟩
    · rintro y d'' ⟨⟩
    · rintro e' d'' ⟨⟩
      exact herror e d' ha
  · refine ⟨?_, ?_⟩
    · rintro y d'' ⟨⟩
      exact hok x d' ha
    · rintro e' d'' ⟨⟩

/-- What every action of a list keeps, all of them keep. -/
theorem ensures_forM {γ : Type} {I : Disk → Prop} {F : ε → Disk → Prop}
    {step : γ → DiskAction ε PUnit} {items : List γ}
    (h : ∀ x ∈ items, Ensures I (step x) (fun _ => I) F) :
    Ensures I (items.forM step) (fun _ => I) F := by
  induction items with
  | nil => exact ensures_pure fun _ hd => hd
  | cons x items ih =>
    refine ensures_bind (h x List.mem_cons_self) fun _ => ?_
    exact ih fun y hy => h y (List.mem_cons_of_mem x hy)

/-- What the actions of a list make of something, one after the other, is what their list does. -/
theorem ensures_forM_foldl {γ σ : Type} {I : σ → Disk → Prop} {F : ε → Disk → Prop}
    {act : γ → DiskAction ε PUnit} {change : σ → γ → σ} {items : List γ} {s : σ}
    (h : ∀ s, ∀ x ∈ items, Ensures (I s) (act x) (fun _ => I (change s x)) F) :
    Ensures (I s) (items.forM act) (fun _ => I (items.foldl change s)) F := by
  induction items generalizing s with
  | nil => exact ensures_pure fun _ hd => hd
  | cons x items ih =>
    refine ensures_bind (h s x List.mem_cons_self) fun _ => ?_
    exact ih fun s y hy => h s y (List.mem_cons_of_mem x hy)

end ImageScoring.DiskAction
