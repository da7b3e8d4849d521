import RecordStore.Proofs.Digits
import RecordStore.Proofs.FileName
import RecordStore.Proofs.Json.Ascii
import RecordStore.Repository.Manifest

/-!
# RecordStore.Proofs.Repository.Manifest

A manifest that was written is read back as the same changes (`read_encode`).  The names of staged
files are apart from each other and from the names of the manifest, and as the text of a path each
is the one name that it is.
-/

namespace RecordStore

/-- A change whose kind and identifier hold no halves of a surrogate pair side by side.  No name of
a file does, since no first half can stand in one. -/
structure Change.Unpaired (c : Change) : Prop where
  kind : Json.Unpaired c.kind
  ident : Json.Unpaired c.ident

instance (c : Change) : Decidable c.Unpaired :=
  decidable_of_iff (Json.Unpaired c.kind ∧ Json.Unpaired c.ident)
    ⟨fun ⟨hk, hi⟩ => ⟨hk, hi⟩, fun ⟨hk, hi⟩ => ⟨hk, hi⟩⟩

namespace Manifest

/-! ## Staged files -/

theorem stagedName_eq (n : Nat) : stagedName n = Text.ofChars (Date.padded 6 n ++ ".json".toList) :=
  (List.map_append ..).symm

theorem stagedName_inj {m n : Nat} (h : stagedName m = stagedName n) : m = n := by
  rw [stagedName, stagedName, List.append_cancel_right_eq] at h
  exact Date.padded_inj (List.map_injective_iff.2 (fun _ _ => Glyph.char.inj) h)

/-- The name of a staged file begins with a digit. -/
theorem stagedName_eq_cons (n : Nat) :
    ∃ c t, stagedName n = .char c :: t ∧ c.isDigit = true := by
  obtain ⟨c, cs, hcs⟩ := List.exists_cons_of_ne_nil (Date.padded_ne_nil 6 n)
  refine ⟨c, Text.ofChars cs ++ ".json", ?_, ?_⟩
  · rw [stagedName, hcs]; rfl
  · exact Date.isDigit_of_mem_padded (by rw [hcs]; exact List.mem_cons_self)

theorem stagedName_ne_of_head {n : Nat} {c : Char} {t : Text} (h : c.isDigit = false) :
    stagedName n ≠ .char c :: t := by
  intro heq
  obtain ⟨c', t', hname, hdigit⟩ := stagedName_eq_cons n
  rw [hname] at heq
  obtain rfl := Glyph.char.inj (List.cons.inj heq).1
  rw [h] at hdigit
  cases hdigit

theorem stagedName_ne_fileName (n : Nat) : stagedName n ≠ fileName :=
  stagedName_ne_of_head (by decide)

theorem stagedName_ne_draftName (n : Nat) : stagedName n ≠ draftName :=
  stagedName_ne_of_head (by decide)

theorem draftName_ne_fileName : draftName ≠ fileName := by decide

/-- The text of a path that is the name of a staged file leads to that file. -/
theorem ofText_stagedName (n : Nat) : Path.ofText (stagedName n) = [stagedName n] := by
  have hslash : Glyph.char '/' ∉ stagedName n := by
    intro hmem
    rcases List.mem_append.1 hmem with hmem | hmem
    · obtain ⟨c, hc, heq⟩ := List.mem_map.1 hmem
      cases heq
      exact absurd (Date.isDigit_of_mem_padded hc) (by decide)
    · exact absurd hmem (by decide)
  obtain ⟨c, t, hname, -⟩ := stagedName_eq_cons n
  have hpoint : stagedName n ≠ [.char '.'] := stagedName_ne_of_head (by decide)
  have hne : stagedName n ≠ [] := by rw [hname]; exact List.cons_ne_nil _ _
  exact Path.ofText_eq_singleton_iff.2 ⟨hslash, hne, hpoint⟩

/-- The name of a staged file is a name that a directory lists. -/
theorem onDisk_stagedName (n : Nat) : Path.onDisk (stagedName n) = .ok [stagedName n] := by
  have hnull : '\x00' ∉ Date.padded 6 n ++ ".json".toList := by
    intro hmem
    rcases List.mem_append.1 hmem with hmem | hmem
    · exact absurd (Date.isDigit_of_mem_padded hmem) (by decide)
    · exact absurd hmem (by decide)
  have hname := ofText_stagedName n
  rw [stagedName_eq] at hname ⊢
  rw [Path.onDisk_ofChars, if_neg hnull, hname]

theorem isAbsolute_stagedName (n : Nat) : Path.isAbsolute (stagedName n) = false :=
  Path.isAbsolute_of_slash_not_mem (Path.ofText_eq_singleton_iff.1 (ofText_stagedName n)).1

theorem stagedName_ne_parentName (n : Nat) : stagedName n ≠ Path.parentName :=
  stagedName_ne_of_head (c := '.') (by decide)

/-! ## Reading manifests back -/

open Json (Readable)

theorem readable_ofString (s : String) : Readable (.str (Text.ofString s)) :=
  .str (Json.unpaired_ofChars _)

theorem readable_changeJson (n : Nat) {c : Change} (h : c.Unpaired) :
    Readable (changeJson n c) := by
  have hop : Readable (.str c.operation.name) := by
    cases c.operation <;> exact readable_ofString _
  have hfile : Readable (.str (stagedName n)) := by
    rw [stagedName_eq]; exact .str (Json.unpaired_ofChars _)
  cases hd : c.data? with
  | none =>
      simp only [changeJson, hd, Option.isSome_none, Bool.false_eq_true, if_false, List.append_nil]
      refine .obj (show (["op", "kind", "ident"] : List Text).Nodup by decide) ?_ ?_
      · simp only [List.forall_mem_cons]
        exact ⟨by decide, by decide, by decide, by simp⟩
      · simp only [List.forall_mem_cons]
        exact ⟨hop, .str h.kind, .str h.ident, by simp⟩
  | some data =>
      simp only [changeJson, hd, Option.isSome_some, if_true, List.cons_append, List.nil_append]
      refine .obj (show (["op", "kind", "ident", "file"] : List Text).Nodup by decide) ?_ ?_
      · simp only [List.forall_mem_cons]
        exact ⟨by decide, by decide, by decide, by decide, by simp⟩
      · simp only [List.forall_mem_cons]
        exact ⟨hop, .str h.kind, .str h.ident, hfile, by simp⟩

theorem readable_changesJson {n : Nat} {changes : List Change} (h : ∀ c ∈ changes, c.Unpaired) :
    ∀ v ∈ changesJson n changes, Readable v := by
  induction changes generalizing n with
  | nil => simp [changesJson]
  | cons c cs ih =>
      rw [changesJson, List.forall_mem_cons]
      exact ⟨readable_changeJson n (h c List.mem_cons_self),
        ih fun x hx => h x (List.mem_cons_of_mem _ hx)⟩

theorem readable_json {batch : Text} {changes : List Change} (hb : Json.Unpaired batch)
    (h : ∀ c ∈ changes, c.Unpaired) : Readable (json batch changes) := by
  refine .obj (show (["batch", "ops"] : List Text).Nodup by decide) ?_ ?_
  · simp only [List.forall_mem_cons]
    exact ⟨by decide, by decide, by simp⟩
  · simp only [List.forall_mem_cons]
    exact ⟨.str hb, .arr (readable_changesJson h), by simp⟩

/-- A manifest is read back as it was written. -/
theorem read_encode {batch : Text} {changes : List Change} (hb : Json.Unpaired batch)
    (h : ∀ c ∈ changes, c.Unpaired) :
    ∃ content, encode batch changes = .ok content ∧ read content = .ok (json batch changes) := by
  have hr := readable_json hb h
  obtain ⟨cs, hcs⟩ := hr.plain_write
  have hbreaks : (Text.ofChars cs).unifyBreaks = Text.ofChars cs :=
    Text.unifyBreaks_eq_self (hcs ▸ hr.cr_not_mem_write)
  have hread : Json.read (Text.ofChars cs) = .ok (json batch changes) := by
    have := Json.read_write .ascii hr (fun _ h => absurd h List.not_mem_nil)
    rwa [List.append_nil, hcs] at this
  refine ⟨Utf8.encodeChars cs, ?_, ?_⟩
  · rw [encode, hcs, Utf8.encode_ofChars]; rfl
  · rw [read, Utf8.decode_encodeChars]
    change (Json.read (Text.ofChars cs).unifyBreaks).mapError _ = _
    rw [hbreaks, hread]
    rfl

theorem changes_json (batch : Text) (changes : List Change) :
    Manifest.changes (json batch changes) = .ok (changesJson 0 changes) := rfl

end Manifest

end RecordStore
