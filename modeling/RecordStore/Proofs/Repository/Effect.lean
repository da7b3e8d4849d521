import RecordStore.Proofs.Repository.Replay

/-!
# RecordStore.Proofs.Repository.Effect

What replaying many changes does to any repository.  Changes of different identifiers do not see
each other, so what they leave is said for each of them by itself (`Carried`), and they come to their
end when nothing is in the way of any of them (`AllClear`).
-/

namespace RecordStore.Repository

open Disk (Program Step)
open RecordName (Valid file)

/-- A disk with the directory of a batch, in which data may be staged for changes that are numbered
from `n` on. -/
structure Ready (batch : Text) (n : Nat) (cs : List Change) (d : Disk) : Prop where
  wellFormed : d.WellFormed
  directory : d.node? (batchPath batch) = some .directory
  offered : ∀ i c, cs[i]? = some c → Offered c (d.node? (stagedPath batch (n + i)))

/-- Nothing is in the way of any change. -/
def AllClear (batch : Text) (n : Nat) (cs : List Change) (d : Disk) : Prop :=
  ∀ i c, cs[i]? = some c → Clear c (d.node? (stagedPath batch (n + i))) d

/-- A disk on which changes were done: each left of its record files what it does by itself. -/
structure Carried (batch : Text) (n : Nat) (cs : List Change) (d d' : Disk) : Prop where
  wellFormed : d'.WellFormed
  record : ∀ i c, cs[i]? = some c → ∀ k, Valid k c.ident →
    d'.node? [file k c.ident] = leaves c (d.node? (stagedPath batch (n + i))) d (file k c.ident)
  staged : ∀ i < cs.length, d'.node? (stagedPath batch (n + i)) = none
  other : ∀ p, (∀ i < cs.length, p ≠ stagedPath batch (n + i)) →
    (∀ c ∈ cs, ∀ k, Valid k c.ident → p ≠ [file k c.ident]) → d'.node? p = d.node? p

section ManyChanges

variable {batch : Text} {n : Nat} {c : Change} {cs : List Change} {d d' : Disk}

theorem Ready.head (r : Ready batch n (c :: cs) d) : Offered c (d.node? (stagedPath batch n)) :=
  r.offered 0 c rfl

theorem AllClear.head (h : AllClear batch n (c :: cs) d) :
    Clear c (d.node? (stagedPath batch n)) d := h 0 c rfl

/-- The staged files of later changes stay as they are. -/
theorem Ready.node?_carried_staged (r : Ready batch n (c :: cs) d) (hv : Valid c.kind c.ident)
    (i : Nat) : (carried batch n c d).node? (stagedPath batch (n + 1 + i))
      = d.node? (stagedPath batch (n + (i + 1))) := by
  have hindex : n + 1 + i = n + (i + 1) := by omega
  rw [hindex]
  refine node?_carried_other r.head hv (fun h => ?_) fun k _ => (record_ne_staged _ _ _).symm
  have := stagedPath_inj h
  omega

/-- The record files of other identifiers stay as they are. -/
theorem Ready.node?_carried_record (r : Ready batch n (c :: cs) d) (hv : Valid c.kind c.ident)
    {c' : Change} (hne : c'.ident ≠ c.ident) (k : Text) (hk : Valid k c'.ident) :
    d.node? [file k c'.ident] = (carried batch n c d).node? [file k c'.ident] :=
  (node?_carried_other r.head hv (record_ne_staged _ _ _)
    fun _ hk' => singleton_file_ne hk hk' (.inl hne)).symm

theorem Ready.tail (r : Ready batch n (c :: cs) d) (hv : Valid c.kind c.ident)
    (hclear : Clear c (d.node? (stagedPath batch n)) d) :
    Ready batch (n + 1) cs (carried batch n c d) where
  wellFormed := wellFormed_carried r.wellFormed r.head hclear
  directory := by
    rw [node?_carried_other r.head hv (by simp [stagedPath]) (by simp [batchPath])]
    exact r.directory
  offered := by
    intro i c' hc'
    rw [r.node?_carried_staged hv]
    exact r.offered (i + 1) c' hc'

section

variable (hnodup : ((c :: cs).map Change.ident).Nodup)
include hnodup

theorem ident_ne_of_getElem? {i : Nat} {c' : Change} (hc' : cs[i]? = some c') :
    c'.ident ≠ c.ident := by
  rw [List.map_cons, List.nodup_cons] at hnodup
  intro heq
  exact hnodup.1 (heq ▸ List.mem_map_of_mem (List.mem_of_getElem? hc'))

variable (hvalid : ∀ c' ∈ c :: cs, Valid c'.kind c'.ident)
include hvalid

/-- A change is not in the way of the later ones. -/
theorem Ready.allClear_iff (r : Ready batch n (c :: cs) d) :
    AllClear batch n (c :: cs) d
      ↔ Clear c (d.node? (stagedPath batch n)) d ∧ AllClear batch (n + 1) cs (carried batch n c d) := by
  have hv := hvalid c List.mem_cons_self
  have hlater : ∀ i c', cs[i]? = some c' →
      (Clear c' (d.node? (stagedPath batch (n + (i + 1)))) d
        ↔ Clear c' ((carried batch n c d).node? (stagedPath batch (n + 1 + i)))
          (carried batch n c d)) := by
    intro i c' hc'
    have hv' := hvalid c' (List.mem_cons_of_mem c (List.mem_of_getElem? hc'))
    have hsame := r.node?_carried_record hv (ident_ne_of_getElem? hnodup hc')
    rw [r.node?_carried_staged hv]
    exact ⟨Clear.congr hsame hv', Clear.congr (fun k hk => (hsame k hk).symm) hv'⟩
  constructor
  · intro h
    exact ⟨h.head, fun i c' hc' => (hlater i c' hc').1 (h (i + 1) c' hc')⟩
  · rintro ⟨hhead, htail⟩ i c' hc'
    cases i with
    | zero => cases hc'; exact hhead
    | succ i => exact (hlater i c' hc').2 (htail i c' hc')

/-- What the later changes leave they leave from the start on. -/
theorem Ready.carried_cons (r : Ready batch n (c :: cs) d)
    (h : Carried batch (n + 1) cs (carried batch n c d) d') : Carried batch n (c :: cs) d d' where
  wellFormed := h.wellFormed
  record := by
    have hv := hvalid c List.mem_cons_self
    intro i c' hc' k hk
    cases i with
    | zero =>
        cases hc'
        rw [h.other _ (fun i _ => record_ne_staged _ _ _), Nat.add_zero,
          Repository.node?_carried_record r.head]
        intro c' hc' k' hk'
        obtain ⟨i, hi⟩ := List.mem_iff_getElem?.1 hc'
        exact singleton_file_ne hk hk' (.inl (ident_ne_of_getElem? hnodup hi).symm)
    | succ i =>
        have hsame := r.node?_carried_record hv (ident_ne_of_getElem? hnodup hc')
        rw [h.record i c' hc' k hk, r.node?_carried_staged hv, leaves_congr hsame hk]
  staged := by
    intro i hi
    cases i with
    | zero =>
        rw [Nat.add_zero, h.other _ (fun i _ heq => ?_) fun _ _ _ _ => (record_ne_staged _ _ _).symm]
        · exact Repository.node?_carried_staged r.head
        · have := stagedPath_inj heq
          omega
    | succ i =>
        have hindex : n + (i + 1) = n + 1 + i := by omega
        rw [hindex]
        exact h.staged i (Nat.lt_of_succ_lt_succ hi)
  other := by
    have hv := hvalid c List.mem_cons_self
    intro p hstaged hrecord
    rw [h.other p, node?_carried_other r.head hv]
    · exact hstaged 0 (Nat.succ_pos _)
    · exact hrecord c List.mem_cons_self
    · intro i hi
      have hindex : n + 1 + i = n + (i + 1) := by omega
      rw [hindex]
      exact hstaged (i + 1) (Nat.succ_lt_succ hi)
    · exact fun c' hc' => hrecord c' (List.mem_cons_of_mem c hc')

end

/-- **Many changes** that nothing is in the way of are done, each by itself. -/
theorem replayChanges_runs_carried (hnodup : (cs.map Change.ident).Nodup)
    (hvalid : ∀ c ∈ cs, Valid c.kind c.ident) (r : Ready batch n cs d)
    (hclear : AllClear batch n cs d) :
    ∃ ss d', (replayChanges (batchPath batch) (Manifest.changesJson n cs)).Runs d ss () d'
      ∧ Carried batch n cs d d' := by
  induction cs generalizing n d with
  | nil => exact ⟨[], d, .done () d, r.wellFormed, by simp, by simp, fun _ _ _ => rfl⟩
  | cons c cs ih =>
      have hv := hvalid c List.mem_cons_self
      have hdone := replayProgram_runs_carried r.directory hv r.head hclear.head
      obtain ⟨ss, d', hruns, hcarried⟩ := ih (List.nodup_cons.1 hnodup).2
        (fun c' hc' => hvalid c' (List.mem_cons_of_mem c hc')) (r.tail hv hclear.head)
        ((r.allClear_iff hnodup hvalid).1 hclear).2
      exact ⟨_, d', by rw [Replaying.replayChanges_cons]; exact hdone.andThen hruns,
        r.carried_cons hnodup hvalid hcarried⟩

/-- A replay that nothing is in the way of does the changes of the manifest, and takes the directory of
the batch away. -/
theorem replay_runs_carried {content : Bytes}
    (hnode : d.node? (manifestPath batch) = some (.file content))
    (hencode : Manifest.encode batch cs = .ok content) (hb : Json.Unpaired batch)
    (hp : ProperChanges cs) (r : Ready batch 0 cs d) (hclear : AllClear batch 0 cs d) :
    ∃ ss d', (replay (batchPath batch)).Runs d ss () (d'.eraseTree (batchPath batch))
      ∧ Carried batch 0 cs d d' := by
  obtain ⟨next, hreplay, hnext⟩ := replay_eq hnode hencode hb hp.unpaired
  obtain ⟨ss, d', hruns, hcarried⟩ := replayChanges_runs_carried hp.nodup hp.valid r hclear
  refine ⟨ss ++ [.removeTree (batchPath batch)], d', ?_, hcarried⟩
  rw [hreplay]
  refine .looked ?_
  rw [hnext]
  exact hruns.andThen (.step (Disk.perform_removeTree d' _))

/-- Changes whose data is staged and that come to their end had nothing in their way. -/
theorem allClear_of_yields (hnodup : (cs.map Change.ident).Nodup)
    (hvalid : ∀ c ∈ cs, Valid c.kind c.ident) (hkept : ∀ c ∈ cs, c.Kept) (r : Ready batch n cs d)
    (hstaged : ∀ i c, cs[i]? = some c → d.node? (stagedPath batch (n + i)) = c.data?.map .file)
    (h : (replayChanges (batchPath batch) (Manifest.changesJson n cs)).run.Yields d (.ok ()) d') :
    AllClear batch n cs d := by
  induction cs generalizing n d with
  | nil => simp [AllClear]
  | cons c cs ih =>
      have hv := hvalid c List.mem_cons_self
      rw [Replaying.replayChanges_cons, Program.run_bind, Procedure.yields_bind_ok_iff] at h
      obtain ⟨_, d₁, hfirst, hrest⟩ := h
      have hclear : Clear c (d.node? (stagedPath batch n)) d := by
        by_contra hblocked
        obtain ⟨f, d₂, hrefused⟩ := replayProgram_refused r.directory hv
          (hkept c List.mem_cons_self) (hstaged 0 c rfl) hblocked
        cases (hfirst.unique hrefused).1
      have hdone := replayProgram_runs_carried r.directory hv r.head hclear
      rw [(hfirst.unique hdone.yields).2] at hrest
      refine (r.allClear_iff hnodup hvalid).2 ⟨hclear, ih (List.nodup_cons.1 hnodup).2
        (fun c' hc' => hvalid c' (List.mem_cons_of_mem c hc'))
        (fun c' hc' => hkept c' (List.mem_cons_of_mem c hc')) (r.tail hv hclear)
        (fun i c' hc' => ?_) hrest⟩
      rw [r.node?_carried_staged hv]
      exact hstaged (i + 1) c' hc'

/-- A replay that comes to its end had nothing in its way. -/
theorem allClear_of_replay {content : Bytes}
    (hnode : d.node? (manifestPath batch) = some (.file content))
    (hencode : Manifest.encode batch cs = .ok content) (hb : Json.Unpaired batch)
    (hp : ProperChanges cs) (hkept : ∀ c ∈ cs, c.Kept) (r : Ready batch 0 cs d)
    (hstaged : ∀ i c, cs[i]? = some c → d.node? (stagedPath batch i) = c.data?.map .file)
    (h : (replay (batchPath batch)).run.Yields d (.ok ()) d') : AllClear batch 0 cs d := by
  obtain ⟨next, hreplay, hnext⟩ := replay_eq hnode hencode hb hp.unpaired
  rw [hreplay, Program.yields_looked_iff, hnext, finishBatch, Program.run_bind,
    Procedure.yields_bind_ok_iff] at h
  obtain ⟨_, d₁, hchanges, -⟩ := h
  exact allClear_of_yields hp.nodup hp.valid hkept r
    (fun i c hc => by rw [Nat.zero_add]; exact hstaged i c hc) hchanges

end ManyChanges

end RecordStore.Repository
