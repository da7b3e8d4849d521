import RecordStore.Merge.Policy

/-!
# RecordStore.Registry

The registry of kinds.  Each kind has one policy: the payload of a new item, and the rule for
merging.  Kinds are registered once, under their own name, and none can be added when the registry
is frozen.
-/

namespace RecordStore

/-- What is known of a kind that can be registered; without a rule for merging it is refused. -/
structure KindPolicy where
  kind : Kind
  title : Text
  fresh : Payload
  merge? : Option MergePolicy

namespace KindPolicy

/-- A policy as messages show it. -/
def display (p : KindPolicy) : Text := p.title ++ "(kind=" ++ p.kind.display ++ ")"

/-- The policy of pages: fields are united, and contested ones are decided by a person. -/
def page : KindPolicy :=
  ⟨.page, "SimpleTypePolicy", { kind := .page, body := .page {} }, some (.fieldUnion false)⟩

/-- The policy of tasks: fields are united, and contested ones go to the later write. -/
def task : KindPolicy :=
  ⟨.task, "TaskTypePolicy", { kind := .task, body := .task {} }, some (.fieldUnion true)⟩

/-- The policy of an added kind: a page with further fields. -/
def extension (name : Text) (extras : List ExtraField) (merge? : Option MergePolicy) :
    KindPolicy :=
  ⟨.word name, "ExtraPolicy", {
    kind := .word name, body := .page {}, extras := extras.map fun f => (f, f.fresh) }, merge?⟩

/-- An item with a header and an empty payload of the kind. -/
def emptyItem (h : Header) (p : KindPolicy) : Except Failure Item := Item.make h p.fresh

end KindPolicy

/-- A registered kind: its tag, its policy, and its rule for merging. -/
structure Registration where
  tag : Kind
  policy : KindPolicy
  merge : MergePolicy

/-- The registered kinds, in the order of registration. -/
structure Registry where
  registrations : List Registration := []
  frozen : Bool := false

namespace Registry

/-- The registration of a kind. -/
def find? (kind : Text) (r : Registry) : Option Registration :=
  r.registrations.find? fun e => e.tag.name == kind

/-- Whether a kind is registered. -/
def has (kind : Text) (r : Registry) : Bool := (r.find? kind).isSome

/-- The registration of a kind, which must be there. -/
def get (kind : Text) (r : Registry) : Except Failure Registration :=
  match r.find? kind with
  | some e => .ok e
  | none => .error (.configuration (.unregistered kind))

/-- The tags of the registered kinds, in the order of their names. -/
def kinds (r : Registry) : List Kind :=
  (r.registrations.map Registration.tag).mergeSort fun a b => a.name.ble b.name

/-- Register a kind under a tag. -/
def register (tag : Kind) (p : KindPolicy) : Procedure Registry Unit := do
  let r ← Procedure.state
  let refuse (e : ConfigurationFault) : Procedure Registry Unit := Procedure.fail (.configuration e)
  if r.frozen then
    refuse (.registryFrozen tag)
  else if tag.name.isEmpty then
    refuse .emptyTag
  else if r.has tag.name then
    refuse (.alreadyRegistered tag)
  else if !p.kind.same tag then
    refuse (.mismatchedTag p.display tag)
  else
    match p.merge? with
    | none => refuse (.noResolver tag)
    | some merge => do
      Procedure.put { r with registrations := r.registrations ++ [⟨tag, p, merge⟩] }
      Procedure.report ⟨.debug, "registry", "registered kind",
        [("kind", tag.display), ("merge_policy", merge.name.quoted)]⟩

/-- Allow no further kinds. -/
def freeze (r : Registry) : Registry := { r with frozen := true }

/-- Register kinds under the tags that a rule gives, one after the other. -/
def registerAll (tagOf : KindPolicy → Kind) : List KindPolicy → Procedure Registry Unit
  | [] => pure ()
  | p :: ps => do
    register (tagOf p) p
    registerAll tagOf ps

/-- Register the bundled kinds and some more under plain words, and allow no further ones. -/
def withKinds (more : List KindPolicy) : Procedure Registry Unit := do
  registerAll (fun p => .word p.kind.name) (.page :: .task :: more)
  Procedure.modify freeze

/-- The frozen registry with the bundled kinds under their declared tags. -/
def bundled : Registry :=
  (Procedure.run (registerAll KindPolicy.kind [.page, .task]) {}).state.freeze

/-! ## Items -/

/-- A new item of a kind; its user counts as the one who creates it. -/
def makeItem (kind ident : Text) (user : Option Text) (r : Registry) : Except Failure Item := do
  let e ← r.get kind
  e.policy.emptyItem { Header.fresh ident e.policy.kind with createdBy := .value user }

/-- The item of a stored record, of the kind that the record tells. -/
def decodeItem (blob : Bytes) (r : Registry) : Traced Item := do
  let members ← Procedure.ofExcept (Record.decode blob)
  let (header, _) ← Procedure.ofExcept (Record.split members)
  let e ← Procedure.ofExcept (r.get header.kind.name)
  let empty ← Procedure.ofExcept (e.policy.emptyItem header)
  let (_, payload) ← Procedure.runOn empty.payload (Payload.decode blob)
  let item : Item := { empty with payload }
  Procedure.report ⟨.debug, "codec", "decoded", [("ident", item.ident.quoted),
    ("kind", item.kind.display), ("revision", item.header.revisionJson.display)]⟩
  return item

/-- The item of a record that was looked for, which must have been found. -/
def decodeFound (blob? : Option Bytes) (r : Registry) : Traced Item :=
  match blob? with
  | some blob => r.decodeItem blob
  | none => Procedure.fail (.absent .record)

/-- The item of a record that was looked for, if it was found. -/
def decodeIfFound (blob? : Option Bytes) (r : Registry) : Traced (Option Item) :=
  match blob? with
  | some blob => some <$> r.decodeItem blob
  | none => pure none

end Registry

end RecordStore
