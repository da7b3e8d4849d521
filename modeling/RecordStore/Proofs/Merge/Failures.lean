import RecordStore.Merge
import RecordStore.Proofs.Decoding

/-!
# RecordStore.Proofs.Merge.Failures

How the parts of a merge fail.  Reading a side and writing the merged item fail without handing
anything over for a decision (`NeverEscalates`), so that whatever is handed over comes from the rules
for merging themselves.  `Procedure.FailsBy` follows the failures of a procedure through its parts.
-/

namespace RecordStore

/-! ## Results -/

/-- A result that is no escalation. -/
def NeverEscalates {α : Type} (x : Except Failure α) : Prop := ∀ e, x ≠ .error (.unresolvable e)

section NeverEscalates

variable {α β : Type}

theorem NeverEscalates.ok (a : α) : NeverEscalates (.ok a) := nofun

theorem NeverEscalates.bind {x : Except Failure α} {f : α → Except Failure β}
    (h : NeverEscalates x) (hf : ∀ a, NeverEscalates (f a)) : NeverEscalates (x >>= f) := by
  cases x with
  | error e => exact fun e' heq => h e' (by cases heq; rfl)
  | ok a => exact hf a

theorem NeverEscalates.mapError {ε : Type} {f : ε → Failure} (hf : ∀ e e', f e ≠ .unresolvable e')
    (x : Except ε α) : NeverEscalates (x.mapError f) := by
  cases x with
  | error e => exact fun e' heq => hf e e' (Except.error.inj heq)
  | ok a => exact nofun

/-- What fails only in other ways hands nothing over. -/
theorem FailsWith.neverEscalates {P : Failure → Prop} {x : Except Failure α} (h : FailsWith P x)
    (hP : ∀ e, ¬ P (.unresolvable e)) : NeverEscalates x := fun e he => hP e (h _ he)

theorem neverEscalates_decode (blob : Bytes) : NeverEscalates (Record.decode blob) :=
  (failsWith_decode blob).neverEscalates <| by rintro e (⟨fault, ⟨⟩⟩ | ⟨cs, n, -, -, ⟨⟩⟩)

theorem neverEscalates_split (ms : Members) : NeverEscalates (Record.split ms) :=
  (failsWith_split ms).neverEscalates <| by rintro e ⟨fault, ⟨⟩⟩

theorem neverEscalates_get (kind : Text) (r : Registry) : NeverEscalates (r.get kind) := by
  intro e
  unfold Registry.get
  split <;> nofun

theorem neverEscalates_make (h : Header) (p : Payload) : NeverEscalates (Item.make h p) := by
  intro e
  unfold Item.make
  split <;> nofun

theorem neverEscalates_loadBody (kind : Kind) (data : Members) (b : Body) :
    NeverEscalates (Payload.loadBody kind data b) :=
  (failsWith_loadBody kind data b).neverEscalates <| by rintro e ⟨fault, ⟨⟩⟩

theorem neverEscalates_loadExtras (kind : Kind) (data : Members) (extras : List (ExtraField × Json)) :
    NeverEscalates (Payload.loadExtras kind data extras) := by
  induction extras with
  | nil => exact .ok _
  | cons e extras ih =>
      refine .bind ?_ fun _ => .bind ih fun _ => .ok _
      intro e
      unfold Payload.loadExtra
      split
      · nofun
      · split
        · nofun
        · split <;> nofun

theorem neverEscalates_flatten (h : Header) (payload : Members) :
    NeverEscalates (Record.flatten h payload) := by
  intro e
  unfold Record.flatten
  split
  · split <;> nofun
  · nofun

theorem neverEscalates_bytes (i : Item) : NeverEscalates i.bytes := by
  refine .bind (neverEscalates_flatten _ _) fun ms => ?_
  unfold Record.encode
  split
  · exact .mapError (fun _ _ h => by cases h) _
  · nofun

theorem neverEscalates_pickLater (ours theirs : Item) (c : Conflict) :
    NeverEscalates (Merge.pickLater ours theirs c) := by
  refine .bind ?_ fun later => by cases later <;> exact .ok _
  intro e
  unfold Merge.writtenLater
  split
  · nofun
  · split
    · nofun
    · nofun
    · nofun
    · split <;> nofun

theorem neverEscalates_mergedHeader (ours theirs merged : Header) (user : Option Text) :
    NeverEscalates (Merge.mergedHeader ours theirs user merged) := by
  refine .bind ?_ fun _ => .ok _
  intro e
  unfold Merge.laterTime
  split
  · nofun
  · nofun
  · nofun
  · split <;> nofun

end NeverEscalates

/-! ## Procedures -/

namespace Procedure

variable {σ τ α β : Type} {P : Failure → Prop}

/-- A procedure that fails only in some ways. -/
def FailsBy (P : Failure → Prop) (p : Procedure σ α) : Prop :=
  ∀ s e s', p.Yields s (.error e) s' → P e

theorem FailsBy.bind {p : Procedure σ α} {f : α → Procedure σ β} (h : p.FailsBy P)
    (hf : ∀ a, (f a).FailsBy P) : (p >>= f).FailsBy P := by
  intro s e s' hr
  rcases yields_bind_iff.1 hr with ⟨e', heq, he⟩ | ⟨a, s₁, -, hrest⟩
  · cases heq
    exact h _ _ _ he
  · exact hf a _ _ _ hrest

theorem failsBy_pure (a : α) : (pure a : Procedure σ α).FailsBy P := by
  intro s e s' h
  cases (yields_pure_iff.1 h).1

theorem failsBy_fail {e : Failure} (he : P e) : (fail e : Procedure σ α).FailsBy P := by
  intro s e' s' h
  cases (yields_fail_iff.1 h).1
  exact he

theorem failsBy_report (e : Event) : (report e : Procedure σ Unit).FailsBy P := by
  intro s e' s' h
  cases (h.unique (yields_report e s)).1

theorem failsBy_state : (state : Procedure σ σ).FailsBy P := by
  intro s e s' h
  cases (h.unique (yields_state s)).1

theorem failsBy_put (t : σ) : (put t : Procedure σ Unit).FailsBy P := by
  intro s e s' h
  cases (h.unique (yields_put t s)).1

theorem failsBy_ofExcept {x : Except Failure α} (h : ∀ e, x = .error e → P e) :
    (ofExcept x : Procedure σ α).FailsBy P := by
  intro s e s' hr
  exact h e (yields_ofExcept_iff.1 hr).1.symm

theorem FailsBy.map {p : Procedure σ α} (h : p.FailsBy P) (g : α → β) : (g <$> p).FailsBy P :=
  h.bind fun a => failsBy_pure (g a)

theorem FailsBy.runOn {p : Procedure τ α} (h : p.FailsBy P) (t : τ) :
    (runOn t p : Procedure σ (α × τ)).FailsBy P := by
  intro s e s' hr
  obtain ⟨t', hp⟩ := hr.of_runOn_error
  exact h _ _ _ hp

end Procedure

end RecordStore
