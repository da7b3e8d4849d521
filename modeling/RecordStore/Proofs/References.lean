import RecordStore.Proofs.Template.Scan
import RecordStore.Text.LineBreak

/-!
# RecordStore.Proofs.References

Reading escaped texts.  The reader of markup goes over a text once from left to right and reads each
character reference as the glyph it stands for (`decodeReferences`).  A way of writing glyphs, each as its
reference or, if it does not begin a reference, as itself, is read back as it was written
(`decodeReferences_flatMap`); escaping is such a way, and so is the writing of attribute values.
-/

namespace RecordStore

namespace Text

open Template (scan)

/-- The character references that are written, with what they stand for. -/
def references : List (Text × Glyph) := [
  ("&amp;", .char '&'), ("&lt;", .char '<'), ("&gt;", .char '>'), ("&quot;", .char '"'),
  ("&#x27;", .char '\''), ("&#10;", .char '\n')]

/-- The glyph of the reference at the front of a text, and what is behind it. -/
def reference? (t : Text) : Option (Glyph × Text) :=
  references.findSome? fun r => (dropPrefix? r.1 t).map (r.2, ·)

/-- A text with what its references stand for in their place. -/
def decodeReferences (t : Text) : Text := (scan reference? t).map (Sum.elim id id)

/-! ## Tables of references -/

section Reading

variable {table : List (Text × Glyph)} {form : Glyph → Text} {g : Glyph} {r : Text}

/-- The glyph of the reference of a table at the front of a text, and what is behind it. -/
def referenceIn? (table : List (Text × Glyph)) (t : Text) : Option (Glyph × Text) :=
  table.findSome? fun r => (dropPrefix? r.1 t).map (r.2, ·)

/-- A text with what the references of a table stand for in their place. -/
def decodeIn (table : List (Text × Glyph)) (t : Text) : Text :=
  (scan (referenceIn? table) t).map (Sum.elim id id)

/-- References begin with an ampersand, and are told from each other where they stand. -/
structure Readable (table : List (Text × Glyph)) : Prop where
  ampersand : ∀ e ∈ table, e.1.head? = some (.char '&')
  found : ∀ r g, (r, g) ∈ table → ∀ rest, referenceIn? table (r ++ rest) = some (g, rest)

@[simp] theorem decodeIn_nil (table : List (Text × Glyph)) : decodeIn table [] = [] := by
  rw [decodeIn, scan]
  rfl

/-- Where there is no ampersand there is no reference. -/
theorem Readable.skips (ht : Readable table) (h : g ≠ .char '&') :
    Template.Skips (referenceIn? table) [g] := by
  refine Template.skips_of_not_mem (.char '&') (fun t hhead => ?_) (by simpa using h.symm)
  refine List.findSome?_eq_none_iff.2 fun e he => ?_
  have hbegin := ht.ampersand e he
  obtain ⟨⟨_ | ⟨a, r⟩, v⟩, rfl⟩ : ∃ e', e' = e := ⟨e, rfl⟩
  · cases hbegin
  · obtain rfl : a = .char '&' := Option.some.inj hbegin
    rw [Template.dropPrefix?_eq_none hhead, Option.map_none]

/-- A text in which every glyph is written as its reference, or as itself if it begins none, is read as
it was. -/
theorem Readable.decodeIn_flatMap (ht : Readable table)
    (h : ∀ g, (form g, g) ∈ table ∨ form g = [g] ∧ g ≠ .char '&') (t : Text) :
    decodeIn table (t.flatMap form) = t := by
  induction t with
  | nil => rw [List.flatMap_nil, decodeIn_nil]
  | cons g t ih =>
      rw [decodeIn] at ih
      rw [List.flatMap_cons, decodeIn]
      rcases h g with hin | ⟨hself, hne⟩
      · have hpos : 0 < (form g).length := by
          have hbegin := ht.ampersand _ hin
          cases hform : form g with
          | nil => rw [hform] at hbegin; cases hbegin
          | cons a r => exact Nat.succ_pos _
        have hlt : (t.flatMap form).length < (form g ++ t.flatMap form).length := by
          rw [List.length_append]
          omega
        rw [Template.scan_found (ht.found _ _ hin _) hlt, List.map_cons, ih]
        rfl
      · rw [hself, Template.scan_append (ht.skips hne), List.map_append, ih]
        rfl

theorem readable_references : Readable references where
  ampersand := by decide
  found := by
    intro r g h rest
    simp only [references, List.mem_cons, Prod.mk.injEq, List.not_mem_nil, or_false] at h
    rcases h with ⟨rfl, rfl⟩ | ⟨rfl, rfl⟩ | ⟨rfl, rfl⟩ | ⟨rfl, rfl⟩ | ⟨rfl, rfl⟩ | ⟨rfl, rfl⟩ <;> rfl

/-- What is written by the references is read back. -/
theorem decodeReferences_flatMap (h : ∀ g, (form g, g) ∈ references ∨ form g = [g] ∧ g ≠ .char '&')
    (t : Text) : decodeReferences (t.flatMap form) = t :=
  readable_references.decodeIn_flatMap h t

end Reading

/-! ## Escaped texts -/

/-- The references that escaping writes, with what they stand for. -/
def entities : List (Text × Glyph) := [
  ("&amp;", .char '&'), ("&lt;", .char '<'), ("&gt;", .char '>'), ("&quot;", .char '"'), ("&#x27;", .char '\'')]

theorem readable_entities : Readable entities where
  ampersand := by decide
  found := by
    intro r g h rest
    simp only [entities, List.mem_cons, Prod.mk.injEq, List.not_mem_nil, or_false] at h
    rcases h with ⟨rfl, rfl⟩ | ⟨rfl, rfl⟩ | ⟨rfl, rfl⟩ | ⟨rfl, rfl⟩ | ⟨rfl, rfl⟩ <;> rfl

theorem entities_subset : entities ⊆ references := fun _ h =>
  List.mem_append_left [(("&#10;" : Text), Glyph.char '\n')] h

/-- A text stands for another one in markup: nothing in it can open or close a tag or end an attribute,
and it is read as the other text. -/
def Shows (v t : Text) : Prop := (∀ g ∈ t, g.Inert) ∧ decodeReferences t = v

theorem escaped_mem (g : Glyph) : (g.escaped, g) ∈ entities ∨ g.escaped = [g] ∧ g ≠ .char '&' := by
  unfold Glyph.escaped
  split
  case h_6 hamp _ _ _ _ => exact .inr ⟨rfl, hamp⟩
  all_goals exact .inl (by decide)

theorem attributeForm_mem (g : Glyph) :
    (attributeForm g, g) ∈ references ∨ attributeForm g = [g] ∧ g ≠ .char '&' := by
  unfold attributeForm
  split
  · exact .inl (by decide)
  · exact (escaped_mem _).imp_left fun h => entities_subset h

/-- An escaped text stands for the text. -/
theorem shows_escape (t : Text) : Shows t t.escape :=
  ⟨fun _ => escape_inert,
    decodeReferences_flatMap (fun g => (escaped_mem g).imp_left fun h => entities_subset h) t⟩

/-- An escaped text is read by the five references that escaping writes. -/
theorem decodeIn_entities_escape (t : Text) : decodeIn entities t.escape = t :=
  readable_entities.decodeIn_flatMap escaped_mem t

theorem inert_of_mem_attributeForm {g h : Glyph} (m : h ∈ attributeForm g) : h.Inert := by
  unfold attributeForm at m
  split at m
  · revert h
    decide
  · exact inert_of_mem_escaped m

/-- The form of a text in an attribute stands for the text with its line breaks unified. -/
theorem shows_forAttribute (t : Text) : Shows t.unifyBreaks t.forAttribute := by
  refine ⟨fun g hg => ?_, decodeReferences_flatMap attributeForm_mem _⟩
  obtain ⟨h, -, hm⟩ := List.mem_flatMap.1 hg
  exact inert_of_mem_attributeForm hm

end Text

end RecordStore
