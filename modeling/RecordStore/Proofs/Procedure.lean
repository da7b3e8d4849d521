import RecordStore.Procedure

/-!
# RecordStore.Proofs.Procedure

What a procedure comes to, without the events that it reports: `p.Yields s r s'` says that from the
state `s` on the procedure `p` has the result `r` and leaves the state `s'`.

There is one fact for each part of which procedures are made.  A sequence is followed forwards by
`Yields.bind` and `Yields.bind_error`, and taken apart by `yields_bind_iff`.
-/

namespace RecordStore

/-- A sequence of results that comes to its end has come through its first part. -/
theorem Except.bind_eq_ok_iff {ε α β : Type} {x : Except ε α} {f : α → Except ε β} {b : β} :
    (x >>= f) = .ok b ↔ ∃ a, x = .ok a ∧ f a = .ok b := by
  cases x <;> simp [bind, Except.bind]

namespace Procedure

variable {σ τ α β : Type}

/-- From a state on a procedure has a result and leaves a state. -/
def Yields (p : Procedure σ α) (s : σ) (r : Except Failure α) (s' : σ) : Prop :=
  (run p s).result = r ∧ (run p s).state = s'

theorem yields_run (p : Procedure σ α) (s : σ) : p.Yields s (run p s).result (run p s).state :=
  ⟨rfl, rfl⟩

/-- A procedure fails or comes to its end. -/
theorem error_or_ok (p : Procedure σ α) (s : σ) :
    (∃ e s', p.Yields s (.error e) s') ∨ ∃ a s', p.Yields s (.ok a) s' := by
  have h := yields_run p s
  cases hr : (run p s).result with
  | error e => exact .inl ⟨e, _, hr ▸ h⟩
  | ok a => exact .inr ⟨a, _, hr ▸ h⟩

section Sequences

variable {p : Procedure σ α} {f : α → Procedure σ β} {s s₁ s₂ : σ} {a : α} {e : Failure}
  {r : Except Failure β}

/-- A procedure yields one thing only. -/
theorem Yields.unique {r₁ r₂ : Except Failure α} (h₁ : p.Yields s r₁ s₁) (h₂ : p.Yields s r₂ s₂) :
    r₁ = r₂ ∧ s₁ = s₂ := ⟨h₁.1.symm.trans h₂.1, h₁.2.symm.trans h₂.2⟩

theorem Yields.bind (h : p.Yields s (.ok a) s₁) (hf : (f a).Yields s₁ r s₂) :
    (p >>= f).Yields s r s₂ := by
  obtain ⟨hr, rfl⟩ := h
  obtain ⟨rfl, rfl⟩ := hf
  simp only [Yields, run_bind, andThen, hr]
  exact ⟨rfl, rfl⟩

theorem Yields.bind_error (h : p.Yields s (.error e) s₁) : (p >>= f).Yields s (.error e) s₁ := by
  obtain ⟨hr, rfl⟩ := h
  simp [Yields, run_bind, andThen, hr]

/-- A sequence fails in its first part, or goes on with the second. -/
theorem yields_bind_iff : (p >>= f).Yields s r s₂ ↔
    (∃ e, r = .error e ∧ p.Yields s (.error e) s₂)
      ∨ ∃ a s₁, p.Yields s (.ok a) s₁ ∧ (f a).Yields s₁ r s₂ := by
  constructor
  · intro h
    rcases error_or_ok p s with ⟨e, s₁, hp⟩ | ⟨a, s₁, hp⟩
    · obtain ⟨rfl, rfl⟩ := h.unique hp.bind_error
      exact .inl ⟨e, rfl, hp⟩
    · have hf := yields_run (f a) s₁
      obtain ⟨rfl, rfl⟩ := h.unique (hp.bind hf)
      exact .inr ⟨a, s₁, hp, hf⟩
  · rintro (⟨e, rfl, h⟩ | ⟨a, s₁, h, hf⟩)
    · exact h.bind_error
    · exact h.bind hf

/-- A sequence that comes to its end has come through its first part. -/
theorem yields_bind_ok_iff {b : β} : (p >>= f).Yields s (.ok b) s₂ ↔
    ∃ a s₁, p.Yields s (.ok a) s₁ ∧ (f a).Yields s₁ (.ok b) s₂ := by
  rw [yields_bind_iff]
  simp

theorem Yields.map (g : α → β) (h : p.Yields s (.ok a) s₁) : (g <$> p).Yields s (.ok (g a)) s₁ :=
  h.bind ⟨rfl, rfl⟩

theorem Yields.map_error (g : α → β) (h : p.Yields s (.error e) s₁) :
    (g <$> p).Yields s (.error e) s₁ := h.bind_error

theorem Yields.discard {r : Except Failure α} (h : p.Yields s r s₁) :
    (Functor.discard p).Yields s (r.map fun _ => ()) s₁ := by
  cases r with
  | ok a => exact h.map fun _ => ()
  | error e => exact h.map_error fun _ => ()

end Sequences

/-! ## Parts -/

section Parts

variable {s s' : σ}

theorem yields_pure_iff {a : α} {r : Except Failure α} :
    (pure a : Procedure σ α).Yields s r s' ↔ r = .ok a ∧ s' = s := by
  simp [Yields, run_pure, eq_comm]

theorem yields_pure (a : α) (s : σ) : (pure a : Procedure σ α).Yields s (.ok a) s := ⟨rfl, rfl⟩

theorem yields_fail_iff {e : Failure} {r : Except Failure α} :
    (fail e : Procedure σ α).Yields s r s' ↔ r = .error e ∧ s' = s := by
  simp [Yields, run, fail, eq_comm]

theorem yields_fail (e : Failure) (s : σ) : (fail e : Procedure σ α).Yields s (.error e) s :=
  ⟨rfl, rfl⟩

theorem yields_ofExcept_iff {x r : Except Failure α} :
    (ofExcept x : Procedure σ α).Yields s r s' ↔ r = x ∧ s' = s := by
  cases x with
  | ok a => exact yields_pure_iff
  | error e => exact yields_fail_iff

theorem yields_ofExcept (x : Except Failure α) (s : σ) :
    (ofExcept x : Procedure σ α).Yields s x s := yields_ofExcept_iff.2 ⟨rfl, rfl⟩

theorem yields_report (e : Event) (s : σ) : (report e).Yields s (.ok ()) s := ⟨rfl, rfl⟩

theorem yields_state (s : σ) : (state : Procedure σ σ).Yields s (.ok s) s := ⟨rfl, rfl⟩

theorem yields_put (t s : σ) : (put t).Yields s (.ok ()) t := ⟨rfl, rfl⟩

theorem yields_modify (f : σ → σ) (s : σ) : (modify f).Yields s (.ok ()) (f s) := ⟨rfl, rfl⟩

/-- What is reported does not matter. -/
theorem yields_report_bind_iff {e : Event} {p : Unit → Procedure σ α} {r : Except Failure α} :
    (report e >>= p).Yields s r s' ↔ (p ()).Yields s r s' := Iff.rfl

theorem yields_state_bind_iff {p : σ → Procedure σ α} {r : Except Failure α} :
    (state >>= p).Yields s r s' ↔ (p s).Yields s r s' := Iff.rfl

theorem yields_ofExcept_ok_bind_iff {a : α} {p : α → Procedure σ β} {r : Except Failure β} :
    (ofExcept (.ok a) >>= p).Yields s r s' ↔ (p a).Yields s r s' := Iff.rfl

theorem Yields.attempt {p : Procedure σ α} {r : Except Failure α} (h : p.Yields s r s') :
    p.attempt.Yields s (.ok r) s' := by
  obtain ⟨rfl, rfl⟩ := h
  exact ⟨rfl, rfl⟩

theorem Yields.onPart {part : σ → τ} {replace : τ → σ → σ} {p : Procedure τ α}
    {r : Except Failure α} {t : τ} (h : p.Yields (part s) r t) :
    (onPart part replace p).Yields s r (replace t s) := by
  obtain ⟨rfl, rfl⟩ := h
  exact ⟨rfl, rfl⟩

theorem Yields.onFirst {t : τ} {p : Procedure σ α} {r : Except Failure α} (h : p.Yields s r s') :
    (onFirst p).Yields (s, t) r (s', t) := by
  obtain ⟨rfl, rfl⟩ := h
  exact ⟨rfl, rfl⟩

theorem Yields.onSecond {t t' : τ} {p : Procedure τ α} {r : Except Failure α}
    (h : p.Yields t r t') : (onSecond p).Yields (s, t) r (s, t') := by
  obtain ⟨rfl, rfl⟩ := h
  exact ⟨rfl, rfl⟩

theorem yields_onFirst_iff {t : τ} {p : Procedure σ α} {r : Except Failure α} {st : σ × τ} :
    (onFirst p).Yields (s, t) r st ↔ ∃ s', p.Yields s r s' ∧ st = (s', t) := by
  constructor
  · intro h
    obtain ⟨rfl, rfl⟩ := h.unique (yields_run p s).onFirst
    exact ⟨_, yields_run p s, rfl⟩
  · rintro ⟨s', h, rfl⟩
    exact h.onFirst

theorem yields_onSecond_iff {t : τ} {p : Procedure τ α} {r : Except Failure α} {st : σ × τ} :
    (onSecond p).Yields (s, t) r st ↔ ∃ t', p.Yields t r t' ∧ st = (s, t') := by
  constructor
  · intro h
    obtain ⟨rfl, rfl⟩ := h.unique (yields_run p t).onSecond
    exact ⟨_, yields_run p t, rfl⟩
  · rintro ⟨t', h, rfl⟩
    exact h.onSecond

theorem Yields.withLocal {t t' : τ} {p : Procedure (σ × τ) α} {r : Except Failure α}
    (h : p.Yields (s, t) r (s', t')) : (withLocal t p).Yields s (r.map (·, t')) s' := by
  obtain ⟨rfl, h⟩ := h
  have hs : (run p (s, t)).state.1 = s' := by rw [h]
  have ht : (run p (s, t)).state.2 = t' := by rw [h]
  subst ht
  exact ⟨rfl, hs⟩

/-- What succeeds on a value next to the state has run on it. -/
theorem Yields.of_withLocal {t t' : τ} {p : Procedure (σ × τ) α} {a : α}
    (h : (Procedure.withLocal t p).Yields s (.ok (a, t')) s') : p.Yields (s, t) (.ok a) (s', t') := by
  rcases error_or_ok p (s, t) with ⟨e, _, hp⟩ | ⟨b, ⟨s₁, t₁⟩, hp⟩
  · cases (h.unique hp.withLocal).1
  · obtain ⟨hb, rfl⟩ := h.unique hp.withLocal
    cases hb
    exact hp

/-- What fails on a value next to the state has run on it. -/
theorem Yields.of_withLocal_error {t : τ} {p : Procedure (σ × τ) α} {e : Failure}
    (h : (Procedure.withLocal t p).Yields s (.error e) s') :
    ∃ t', p.Yields (s, t) (.error e) (s', t') := by
  rcases error_or_ok p (s, t) with ⟨e', ⟨s₁, t₁⟩, hp⟩ | ⟨b, _, hp⟩
  · obtain ⟨he, rfl⟩ := h.unique hp.withLocal
    cases he
    exact ⟨t₁, hp⟩
  · cases (h.unique hp.withLocal).1

theorem Yields.runOn {t t' : τ} {p : Procedure τ α} {r : Except Failure α} (h : p.Yields t r t') :
    (runOn t p).Yields s (r.map (·, t')) s := h.onSecond.withLocal

theorem Yields.of_runOn {t t' : τ} {p : Procedure τ α} {a : α}
    (h : (Procedure.runOn t p).Yields s (.ok (a, t')) s') : p.Yields t (.ok a) t' := by
  obtain ⟨_, hp, heq⟩ := yields_onSecond_iff.1 h.of_withLocal
  cases heq
  exact hp

theorem Yields.of_runOn_error {t : τ} {p : Procedure τ α} {e : Failure}
    (h : (Procedure.runOn t p).Yields s (.error e) s') : ∃ t', p.Yields t (.error e) t' := by
  obtain ⟨_, hlocal⟩ := h.of_withLocal_error
  obtain ⟨t', hp, -⟩ := yields_onSecond_iff.1 hlocal
  exact ⟨t', hp⟩

theorem Yields.lift {p : Traced α} {r : Except Failure α} (h : p.Yields () r ()) :
    p.lift.Yields s r s := ⟨h.1, rfl⟩

theorem yields_lift_iff {p : Traced α} {r : Except Failure α} :
    p.lift.Yields s r s' ↔ p.Yields () r () ∧ s' = s := by
  constructor
  · intro h
    obtain ⟨rfl, rfl⟩ := h.unique (yields_run p ()).lift
    exact ⟨yields_run p (), rfl⟩
  · rintro ⟨h, rfl⟩
    exact h.lift

end Parts

/-! ## Before and after -/

/-- From the states with `P` on, a procedure that comes to its end makes `Q` true, and one that fails
`E`. -/
def Ensures (P : σ → Prop) (p : Procedure σ α) (Q : α → σ → Prop) (E : σ → Prop) : Prop :=
  ∀ s r s', P s → p.Yields s r s' → match r with
    | .ok a => Q a s'
    | .error _ => E s'

section Ensures

variable {P : σ → Prop} {Q : α → σ → Prop} {R : β → σ → Prop} {E : σ → Prop} {p : Procedure σ α}

/-- What is done first makes true what the rest starts from. -/
theorem Ensures.bind {f : α → Procedure σ β} (hp : p.Ensures P Q E)
    (hf : ∀ a, (f a).Ensures (Q a) R E) : (p >>= f).Ensures P R E := by
  intro s r s' hs h
  rcases yields_bind_iff.1 h with ⟨e, rfl, he⟩ | ⟨a, s₁, ha, hrest⟩
  · exact hp s _ s' hs he
  · exact hf a s₁ r s' (hp s _ s₁ hs ha) hrest

/-- What is true in the end may be weakened. -/
theorem Ensures.imp {Q' : α → σ → Prop} (hp : p.Ensures P Q E) (h : ∀ a s, Q a s → Q' a s) :
    p.Ensures P Q' E := by
  intro s r s' hs hr
  have hpost := hp s r s' hs hr
  cases r with
  | ok a => exact h a s' hpost
  | error e => exact hpost

/-- A procedure is judged by what it yields. -/
theorem ensures_of_yields (h : ∀ s, P s → ∃ r s', p.Yields s r s' ∧ match r with
    | .ok a => Q a s'
    | .error _ => E s') : p.Ensures P Q E := by
  intro s r s' hs hr
  obtain ⟨r₁, s₁, hy, hpost⟩ := h s hs
  obtain ⟨rfl, rfl⟩ := hr.unique hy
  exact hpost

theorem ensures_pure {a : α} (h : ∀ s, P s → Q a s) : (pure a : Procedure σ α).Ensures P Q E :=
  ensures_of_yields fun s hs => ⟨_, s, yields_pure a s, h s hs⟩

theorem ensures_fail {e : Failure} (h : ∀ s, P s → E s) :
    (fail e : Procedure σ α).Ensures P Q E :=
  ensures_of_yields fun s hs => ⟨_, s, yields_fail e s, h s hs⟩

theorem ensures_ofExcept {x : Except Failure α} (h : ∀ a s, x = .ok a → P s → Q a s)
    (he : ∀ s, P s → E s) : (ofExcept x).Ensures P Q E := by
  refine ensures_of_yields fun s hs => ⟨x, s, yields_ofExcept x s, ?_⟩
  cases x with
  | ok a => exact h a s rfl hs
  | error e => exact he s hs

/-- What follows a computation may use what it gives. -/
theorem ensures_ofExcept_bind {x : Except Failure α} {f : α → Procedure σ β}
    (h : ∀ a, x = .ok a → (f a).Ensures P R E) (he : ∀ s, P s → E s) :
    (ofExcept x >>= f).Ensures P R E := by
  intro s r s' hs hr
  cases x with
  | ok a => exact h a rfl s r s' hs (yields_ofExcept_ok_bind_iff.1 hr)
  | error e =>
      obtain ⟨rfl, rfl⟩ := hr.unique (yields_fail e s).bind_error
      exact he s' hs

/-- What only looks leaves everything true. -/
theorem ensures_of_looks (h : ∀ s, P s → ∃ r, p.Yields s r s) : p.Ensures P (fun _ => P) P := by
  refine ensures_of_yields fun s hs => ?_
  obtain ⟨r, hr⟩ := h s hs
  refine ⟨r, s, hr, ?_⟩
  cases r with
  | ok a => exact hs
  | error e => exact hs

theorem ensures_modify {f : σ → σ} {Q : σ → Prop} (h : ∀ s, P s → Q (f s)) :
    (modify f).Ensures P (fun _ => Q) E :=
  ensures_of_yields fun s hs => ⟨_, _, yields_modify f s, h s hs⟩

/-- What follows a look at the state may use it. -/
theorem ensures_state_bind {f : σ → Procedure σ α}
    (h : ∀ a, P a → (f a).Ensures (fun s => s = a) Q E) : (state >>= f).Ensures P Q E :=
  fun s r s' hs hr => h s hs s r s' rfl (yields_state_bind_iff.1 hr)

/-- A step on the first part is judged with the second part as it is. -/
theorem ensures_onFirst {P : σ × τ → Prop} {Q : α → σ × τ → Prop} {E : σ × τ → Prop}
    (h : ∀ t, p.Ensures (fun s => P (s, t)) (fun a s => Q a (s, t)) (fun s => E (s, t))) :
    (onFirst p).Ensures P Q E := by
  rintro ⟨s, t⟩ r st hs hr
  obtain ⟨s', hfirst, rfl⟩ := yields_onFirst_iff.1 hr
  exact h t s r s' hs hfirst

/-- A step on the second part is judged with the first part as it is. -/
theorem ensures_onSecond {p : Procedure τ α} {P : σ × τ → Prop} {Q : α → σ × τ → Prop}
    {E : σ × τ → Prop}
    (h : ∀ s, p.Ensures (fun t => P (s, t)) (fun a t => Q a (s, t)) (fun t => E (s, t))) :
    (onSecond p).Ensures P Q E := by
  rintro ⟨s, t⟩ r st hs hr
  obtain ⟨t', hsecond, rfl⟩ := yields_onSecond_iff.1 hr
  exact h s t r t' hs hsecond

/-- A procedure with a local part is judged as one on both parts. -/
theorem ensures_withLocal {t : τ} {p : Procedure (σ × τ) α} {Q : α × τ → σ → Prop}
    (h : p.Ensures (fun st => P st.1 ∧ st.2 = t) (fun a st => Q (a, st.2) st.1) (fun st => E st.1)) :
    (withLocal t p).Ensures P Q E := by
  refine ensures_of_yields fun s hs => ?_
  rcases error_or_ok p (s, t) with ⟨e, _, hp⟩ | ⟨a, _, hp⟩
  · exact ⟨_, _, hp.withLocal, h (s, t) _ _ ⟨hs, rfl⟩ hp⟩
  · exact ⟨_, _, hp.withLocal, h (s, t) _ _ ⟨hs, rfl⟩ hp⟩

end Ensures

end Procedure

end RecordStore
