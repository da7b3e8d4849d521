import Mathlib.Data.List.Induction
import RecordStore.Disk

/-!
# RecordStore.Proofs.Disk.Tree

Trees of files and directories.  A disk is `WellFormed` when it is a tree: no path is listed twice,
and what is listed stands in a directory.  What stands at a path after a change is told by one
lemma for each change (`node?_put`, `node?_erase`, `node?_eraseTree`), and the steps that a
repository does are told by those (`perform_write` and the lemmas beside it).
-/

namespace RecordStore.Disk

/-! ## Looking up in filtered lists -/

theorem lookup_filter_key [BEq α] [LawfulBEq α] (keep : α → Bool) (l : List (α × β)) (a : α) :
    (l.filter fun e => keep e.1).lookup a = if keep a then l.lookup a else none := by
  induction l with
  | nil => simp
  | cons e l ih =>
      obtain ⟨k, v⟩ := e
      rw [List.filter_cons]
      by_cases h : a = k
      · subst h
        by_cases hk : keep a = true <;> simp [hk, ih]
      · by_cases hk : keep k = true <;>
          simp [hk, List.lookup_cons, beq_false_of_ne h, ih]

/-- Where keys are listed once, looking up finds every entry. -/
theorem lookup_eq_some_of_mem [BEq α] [LawfulBEq α] {l : List (α × β)} {a : α} {b : β}
    (hl : (l.map Prod.fst).Nodup) (h : (a, b) ∈ l) : l.lookup a = some b := by
  induction l with
  | nil => cases h
  | cons e l ih =>
      obtain ⟨k, v⟩ := e
      rw [List.map_cons, List.nodup_cons] at hl
      rcases List.mem_cons.1 h with heq | hmem
      · cases heq; simp
      · have hne : a ≠ k := by
          rintro rfl
          exact hl.1 (List.mem_map.2 ⟨_, hmem, rfl⟩)
        rw [List.lookup_cons, beq_false_of_ne hne, ih hl.2 hmem]

/-! ## What stands at a path -/

@[simp] theorem node?_nil (d : Disk) : d.node? [] = some .directory := by simp [node?]

theorem node?_of_ne_nil {p : Path} (h : p ≠ []) (d : Disk) : d.node? p = d.nodes.lookup p := by
  simp [node?, h]

theorem node?_put {p : Path} (hp : p ≠ []) (n : Node) (d : Disk) (q : Path) :
    (d.put p n).node? q = if q = p then some n else d.node? q := by
  by_cases hq : q = []
  · subst hq; simp [Ne.symm hp]
  · have hf := lookup_filter_key (fun a => decide (a ≠ p)) d.nodes q
    rw [node?_of_ne_nil hq, node?_of_ne_nil hq]
    simp only [put, List.lookup_append, hf]
    by_cases h : q = p
    · simp [h]
    · simp [h, List.lookup_cons, beq_false_of_ne h]

theorem node?_erase {p : Path} (hp : p ≠ []) (d : Disk) (q : Path) :
    (d.erase p).node? q = if q = p then none else d.node? q := by
  by_cases hq : q = []
  · subst hq; simp [Ne.symm hp]
  · have hf := lookup_filter_key (fun a => decide (a ≠ p)) d.nodes q
    rw [node?_of_ne_nil hq, node?_of_ne_nil hq]
    simp only [erase, hf]
    by_cases h : q = p <;> simp [h]

theorem encloses_nil_right {p : Path} (hp : p ≠ []) : encloses p [] = false := by
  cases p with
  | nil => exact absurd rfl hp
  | cons a p => rfl

@[simp] theorem encloses_self (p : Path) : encloses p p = true :=
  encloses_iff.2 ⟨[], (List.append_nil p).symm⟩

@[simp] theorem encloses_append (p q : Path) : encloses p (p ++ q) = true :=
  encloses_iff.2 ⟨q, rfl⟩

theorem node?_eraseTree {p : Path} (hp : p ≠ []) (d : Disk) (q : Path) :
    (d.eraseTree p).node? q = if encloses p q then none else d.node? q := by
  by_cases hq : q = []
  · subst hq; simp [encloses_nil_right hp]
  · have hf := lookup_filter_key (fun a => !encloses p a) d.nodes q
    rw [node?_of_ne_nil hq, node?_of_ne_nil hq]
    simp only [eraseTree, hf]
    by_cases h : encloses p q = true <;> simp [h]

/-- What stands at a path is listed, unless it is the root. -/
theorem mem_nodes_of_node? {d : Disk} {p : Path} {n : Node} (hp : p ≠ [])
    (h : d.node? p = some n) : (p, n) ∈ d.nodes := by
  rw [node?_of_ne_nil hp, List.lookup_eq_some_iff] at h
  obtain ⟨l, r, hl, -⟩ := h
  rw [hl]; simp

theorem isSome_node?_iff {d : Disk} {p : Path} (hp : p ≠ []) :
    (d.node? p).isSome ↔ ∃ n, (p, n) ∈ d.nodes := by
  constructor
  · intro h
    obtain ⟨n, hn⟩ := Option.isSome_iff_exists.1 h
    exact ⟨n, mem_nodes_of_node? hp hn⟩
  · rintro ⟨n, hn⟩
    rw [node?_of_ne_nil hp, List.lookup_isSome_iff]
    exact ⟨(p, n), hn, by simp⟩

@[simp] theorem isDirectory_iff {d : Disk} {p : Path} :
    d.isDirectory p = true ↔ d.node? p = some .directory := by simp [isDirectory]

@[simp] theorem holds_iff {d : Disk} {p : Path} : d.holds p = true ↔ ∃ n, d.node? p = some n := by
  simp [holds, Option.isSome_iff_exists]

theorem read_file {d : Disk} {p : Path} {content : Bytes}
    (h : d.node? p = some (.file content)) : d.read p = .ok content := by simp [read, h]

/-! ## Trees -/

/-- A disk that is a tree: every listed path is listed once and lies in a directory. -/
structure WellFormed (d : Disk) : Prop where
  nodup : (d.nodes.map Prod.fst).Nodup
  listed_ne_nil : ∀ e ∈ d.nodes, e.1 ≠ []
  parent : ∀ e ∈ d.nodes, d.node? e.1.dropLast = some .directory

/-- An empty disk is a tree. -/
theorem wellFormed_empty : WellFormed {} := ⟨by simp, by simp, by simp⟩

namespace WellFormed

variable {d : Disk}

/-- What is listed at a path stands there. -/
theorem node?_of_mem (w : d.WellFormed) {p : Path} {n : Node} (h : (p, n) ∈ d.nodes) :
    d.node? p = some n := by
  rw [node?_of_ne_nil (w.listed_ne_nil _ h), lookup_eq_some_of_mem w.nodup h]

/-- What stands at a path stands in a directory. -/
theorem node?_dropLast (w : d.WellFormed) {p : Path} {n : Node} (h : d.node? p = some n) :
    d.node? p.dropLast = some .directory := by
  by_cases hp : p = []
  · subst hp; simp
  · exact w.parent _ (mem_nodes_of_node? hp h)

/-- Nothing stands in what is no directory. -/
theorem node?_append_eq_none (w : d.WellFormed) {p : Path} (h : d.node? p ≠ some .directory)
    (rest : Path) (hr : rest ≠ []) : d.node? (p ++ rest) = none := by
  induction rest using List.reverseRecOn with
  | nil => exact absurd rfl hr
  | append_singleton rest name ih =>
      cases hn : d.node? (p ++ (rest ++ [name])) with
      | none => rfl
      | some n =>
          have hd := w.node?_dropLast hn
          rw [← List.append_assoc, List.dropLast_concat] at hd
          by_cases hrest : rest = []
          · subst hrest; rw [List.append_nil] at hd; exact absurd hd h
          · rw [ih hrest] at hd; cases hd

theorem put (w : d.WellFormed) {p : Path} {n : Node} (hp : p ≠ [])
    (hparent : d.node? p.dropLast = some .directory)
    (hkeep : n = .directory ∨ d.node? p ≠ some .directory) : (d.put p n).WellFormed := by
  have hdir : ∀ q, d.node? q = some .directory → (d.put p n).node? q = some .directory := by
    intro q hq
    rw [node?_put hp]
    by_cases h : q = p
    · subst h
      rcases hkeep with h | h
      · simp [h]
      · exact absurd hq h
    · simp [h, hq]
  refine ⟨?_, ?_, ?_⟩
  · simp only [Disk.put, List.map_append, List.map_cons, List.map_nil]
    refine List.nodup_append.2 ⟨w.nodup.sublist (List.filter_sublist.map _), by simp, ?_⟩
    rintro a ha b hb rfl
    obtain ⟨e, he, rfl⟩ := List.mem_map.1 ha
    have h1 := (List.mem_filter.1 he).2
    simp only [List.mem_singleton] at hb
    simp [hb] at h1
  · intro e he
    rcases List.mem_append.1 he with h | h
    · exact w.listed_ne_nil e (List.mem_filter.1 h).1
    · rw [List.mem_singleton.1 h]; exact hp
  · intro e he
    apply hdir
    rcases List.mem_append.1 he with h | h
    · exact w.parent e (List.mem_filter.1 h).1
    · rw [List.mem_singleton.1 h]; exact hparent

/-- Leaving entries out keeps a tree if nothing stays below what goes. -/
theorem filter (w : d.WellFormed) (keep : Path → Bool)
    (hdown : ∀ p n, (p, n) ∈ d.nodes → keep p = true → p.dropLast ≠ [] → keep p.dropLast = true) :
    WellFormed ⟨d.nodes.filter fun e => keep e.1⟩ := by
  refine ⟨w.nodup.sublist (List.filter_sublist.map _),
    fun e he => w.listed_ne_nil e (List.mem_filter.1 he).1, ?_⟩
  rintro ⟨p, n⟩ he
  obtain ⟨hmem, hkeep⟩ := List.mem_filter.1 he
  have hpar := w.parent _ hmem
  by_cases hq : p.dropLast = []
  · simp [hq]
  · have hf := lookup_filter_key keep d.nodes p.dropLast
    rw [node?_of_ne_nil hq] at hpar ⊢
    simp only [hf, hdown p n hmem hkeep hq, if_true, hpar]

theorem erase (w : d.WellFormed) {p : Path}
    (h : ∀ rest, rest ≠ [] → d.node? (p ++ rest) = none) : (d.erase p).WellFormed := by
  refine w.filter (fun q => decide (q ≠ p)) ?_
  intro q n hmem _ _
  simp only [ne_eq, decide_eq_true_eq]
  intro hq
  have hne := w.listed_ne_nil _ hmem
  have hsplit : p ++ [q.getLast hne] = q := by rw [← hq]; exact List.dropLast_concat_getLast hne
  have := h [q.getLast hne] (by simp)
  rw [hsplit, w.node?_of_mem hmem] at this
  cases this

/-- A file can go: nothing stands below it. -/
theorem erase_file (w : d.WellFormed) {p : Path} (h : d.node? p ≠ some .directory) :
    (d.erase p).WellFormed := w.erase (w.node?_append_eq_none h)

theorem eraseTree (w : d.WellFormed) (p : Path) : (d.eraseTree p).WellFormed := by
  refine w.filter (fun q => !encloses p q) ?_
  intro q n hmem hkeep _
  simp only [Bool.not_eq_true', Bool.eq_false_iff, ne_eq] at hkeep ⊢
  intro hq
  obtain ⟨rest, hrest⟩ := encloses_iff.1 hq
  have hne := w.listed_ne_nil _ hmem
  refine hkeep (encloses_iff.2 ⟨rest ++ [q.getLast hne], ?_⟩)
  rw [← List.append_assoc, ← hrest, List.dropLast_concat_getLast hne]

end WellFormed

/-! ## Names in a directory -/

theorem childName?_eq_some_iff {directory p : Path} {name : Text} :
    childName? directory p = some name ↔ p = directory ++ [name] := by
  unfold childName?
  constructor
  · intro h
    split at h
    · next heq => rw [Option.some.injEq] at h; subst h; exact Text.dropPrefix?_eq_some_iff.1 heq
    · cases h
  · intro h
    rw [Text.dropPrefix?_eq_some_iff.2 h]

/-- The names in a directory are those at which something stands. -/
theorem mem_names_iff {d : Disk} {directory : Path} {name : Text} :
    name ∈ d.names directory ↔ ∃ n, d.node? (directory ++ [name]) = some n := by
  rw [names, List.mem_mergeSort, List.mem_filterMap, ← Option.isSome_iff_exists,
    isSome_node?_iff (by simp)]
  constructor
  · rintro ⟨⟨p, n⟩, hmem, hchild⟩
    rw [childName?_eq_some_iff] at hchild
    exact ⟨n, hchild ▸ hmem⟩
  · rintro ⟨n, hmem⟩
    exact ⟨_, hmem, childName?_eq_some_iff.2 rfl⟩

/-- No name is listed twice. -/
theorem WellFormed.nodup_names {d : Disk} (w : d.WellFormed) (directory : Path) :
    (d.names directory).Nodup := by
  rw [names, (List.mergeSort_perm _ _).nodup_iff]
  have hp := List.pairwise_map.1 w.nodup
  refine List.Pairwise.filterMap _ ?_ hp
  intro a b hab x hx y hy hxy
  rw [childName?_eq_some_iff] at hx hy
  exact hab (by rw [hx, hy, hxy])

/-! ## Steps -/

section Steps

variable {d : Disk} {p : Path}

theorem inDirectory_ok (h : d.node? p.dropLast = some .directory) : d.inDirectory p = .ok () := by
  simp [inDirectory, h]

theorem perform_makeDirectory (hparent : d.node? p.dropLast = some .directory)
    (hfree : d.node? p = none) : d.perform (.makeDirectory p) = .ok (d.put p .directory) := by
  simp [perform, inDirectory_ok hparent, holds, hfree, bind, Except.bind, pure, Except.pure]

/-- A directory is made in a directory, where nothing stands. -/
theorem eq_of_perform_makeDirectory {d' : Disk} (h : d.perform (.makeDirectory p) = .ok d') :
    d.node? p.dropLast = some .directory ∧ d.node? p = none ∧ d' = d.put p .directory := by
  cases hn : d.node? p.dropLast with
  | none => simp [perform, inDirectory, hn, bind, Except.bind] at h
  | some n =>
      cases n with
      | file content => simp [perform, inDirectory, hn, bind, Except.bind] at h
      | directory =>
          cases hp : d.node? p with
          | none =>
              rw [perform_makeDirectory hn hp] at h
              exact ⟨rfl, rfl, (Except.ok.inj h).symm⟩
          | some n =>
              simp [perform, inDirectory, hn, holds, hp, bind, Except.bind, throw, throwThe,
                MonadExceptOf.throw] at h

theorem perform_write (hparent : d.node? p.dropLast = some .directory)
    (h : d.node? p ≠ some .directory) (content : Bytes) :
    d.perform (.write p content) = .ok (d.put p (.file content)) := by
  simp [perform, inDirectory_ok hparent, isDirectory, h, bind, Except.bind, pure, Except.pure]

theorem perform_move_file {target : Path} {content : Bytes} (hs : d.node? p = some (.file content))
    (ht : d.node? target ≠ some .directory) (hne : p ≠ target)
    (hout : encloses p target = false) (hin : encloses target p = false) :
    d.perform (.move p target) = .ok ((d.erase p).put target (.file content)) := by
  simp [perform, hs, ht, hne, hout, hin]

theorem perform_remove {content : Bytes} (h : d.node? p = some (.file content)) :
    d.perform (.remove p) = .ok (d.erase p) := by simp [perform, h]

@[simp] theorem perform_removeTree (d : Disk) (p : Path) :
    d.perform (.removeTree p) = .ok (d.eraseTree p) := rfl

end Steps

end RecordStore.Disk
