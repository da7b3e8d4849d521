import RecordStore.Header.Schema
import RecordStore.Json.Keyed
import RecordStore.Json.Reader
import RecordStore.Timestamp.Reader
import RecordStore.Journal

/-!
# RecordStore.Failure

Why an operation fails.  `Failure` lists the causes; wording, category and details are functions of
the cause.  The failures of the store itself have a `Report`, which is what a caller is told and
what the journal is given; the others are faults of stored bytes, of values or of the storage below.
-/

namespace RecordStore

/-! ## Reports -/

/-- The categories of the store's own failures. -/
inductive Category where
  | general
  | configuration
  | validation
  | deserialization
  | rendering
  | unresolvable
  | programming
  | unknownAction
  | itemNotFound
deriving DecidableEq

namespace Category

/-- The name of a category in reports and in the journal. -/
def name : Category → Text
  | general => "ItemStoreError"
  | configuration => "ConfigurationError"
  | validation => "ValidationError"
  | deserialization => "DeserializeError"
  | rendering => "RenderError"
  | unresolvable => "ConflictUnresolvable"
  | programming => "ProgrammingError"
  | unknownAction => "UnknownActionError"
  | itemNotFound => "ItemNotFoundError"

/-- The level at which the journal is told: what a user can mend is information, a conflict that
needs a decision is a warning, and the rest are errors. -/
def level : Category → Level
  | validation | itemNotFound => .info
  | unresolvable => .warning
  | _ => .error

end Category

/-- A failed check of an input field: the tag of its place on the form, and a message. -/
structure FieldError where
  tag : Text
  message : Text
deriving DecidableEq

/-- A field error as JSON. -/
def FieldError.toJson (e : FieldError) : Json :=
  .obj [("tag", .str e.tag), ("message", .str e.message)]

/-- What a caller is told about a failure of the store. -/
structure Report where
  category : Category
  message : Text
  details : Members
  errors : List FieldError

namespace Report

/-- A list of names as JSON. -/
def namesJson (names : List Text) : Json := .arr (names.map .str)

/-- Put a value under a key that has none yet. -/
def setDefault (key : Text) (value : Json) (ms : Members) : Members :=
  match ms.get? key with
  | some _ => ms
  | none => ms.set key value

/-- A report on an item and some of its fields.  A conflict always tells both, and a missing item
its identifier if it has one. -/
def make (category : Category) (message : Text) (details : Members) (errors : List FieldError)
    (ident : Text) (fields : List Text) : Report where
  category := category
  message := message
  errors := errors
  details := match category with
    | .unresolvable =>
      setDefault "fields" (namesJson fields) (setDefault "ident" (.str ident) details)
    | .itemNotFound =>
      if ident.isEmpty then details else details.set "ident" (.str ident)
    | _ => details

/-- The report as JSON; only a validation failure tells its field errors. -/
def toJson (r : Report) : Json :=
  let told : Members := [("error_type", .str r.category.name), ("message", .str r.message),
    ("details", .obj r.details)]
  let errors : Members :=
    if r.category = .validation then [("errors", .arr (r.errors.map FieldError.toJson))] else []
  .obj (told ++ errors)

/-- The journal's event for a report. -/
def event (r : Report) : Event :=
  ⟨r.category.level, "errors", r.message, [("error_type", r.category.name.quoted)]⟩

end Report

/-! ## Causes -/

/-- A kind is not registered, or its policy does not fit. -/
inductive ConfigurationFault where
  | registryFrozen (tag : Kind)
  | emptyTag
  | alreadyRegistered (tag : Kind)
  | mismatchedTag (policy : Text) (tag : Kind)
  | noResolver (tag : Kind)
  | unregistered (kind : Text)
  | shadowedFields (names : List Text) (kind : Text)
  | payloadMismatch (payload item : Kind) (ident : Text)

/-- A stored record is no item. -/
inductive DeserializationFault where
  | undecodable (fault : Utf8.DecodeFault)
  | malformed (problem : Json.Problem) (place : Json.Place)
  | notAnObject (value : Json)
  | badHeader (faults : List SchemaFault)
  | wrongKind (record : Text) (payload : Kind) (ident : Text)
  | notText (kind field : Text) (value : Json)
  | unknownStatus (value : Json)
  | badDeferral (value : Json)
  | notARecordPath (path : Text)

/-- User input is missing or bad. -/
inductive ValidationFault where
  | missing (field : Text)
  | badDeferral
  | rejected (errors : List FieldError) (ident : Text)

/-- The library is used in a way it does not allow. -/
inductive ProgrammingFault where
  | noActions (kind ident action : Text)
  | noDefault (field : Text)
  | sessionOver
  | noRepository
  | listFlushed (ident : Text)
  | duplicateWrite (ident operation : Text)
  | flushedTwice

/-- Why a conflict needs a decision. -/
inductive EscalationReason where
  | foreignSide (kind ident : Text)
  | createdSeparately
  | contested
  | manual

/-- A conflict that cannot be settled by rule, with all that is needed to settle it by hand. -/
structure Escalation where
  reason : EscalationReason
  ident : Text
  ours : Option Bytes
  theirs : Option Bytes
  ancestor : Option Bytes
  fields : List Text

/-- A manifest is not what a committed batch leaves. -/
inductive ManifestFault where
  | undecodable (fault : Utf8.DecodeFault)
  | malformed (problem : Json.Problem) (place : Json.Place)
  | missingKey (key : Text)
  | notKeyed (value : Json)
  | notAName (value : Json)

/-- The storage refuses. -/
inductive StorageFault where
  | alreadyExists
  | missing
  | isDirectory
  | notDirectory
  | busy
deriving DecidableEq

/-- A clock cannot be read: what it advances by is no length of time, or one of too many days, or
the time after it is not in the calendar. -/
inductive ClockFault where
  | notACount (value : Json)
  | notANumber
  | endless
  | tooManyDays (days : Int)
  | calendar

/-- Something that is asked for is not there: the bytes of a record that is to be decoded or
written, the repository that is to be read, or the header or the payload of a side that was not
found. -/
inductive Absence where
  | record
  | content
  | repository
  | header
  | payload
deriving DecidableEq

/-- A change that no batch can hold, or a record that no file can, for the null in its name. -/
inductive ChangeFault where
  | unknownOperation (name : Text)
  | needlessData
  | missingData (operation ident : Text)
  | nullInName

/-- Why an operation fails. -/
inductive Failure where
  | configuration (fault : ConfigurationFault)
  | deserialization (fault : DeserializationFault)
  | validation (fault : ValidationFault)
  | programming (fault : ProgrammingFault)
  | missingTemplate (name path : Text)
  | unresolvable (escalation : Escalation)
  | unknownAction (name : Text)
  | itemNotFound (ident : Text)
  | invalidHeader (faults : List SchemaFault)
  | incomparableTimes
  | uncountable (value : Json)
  | recordName (stem : Text)
  | change (fault : ChangeFault)
  | date (raw : Text) (fault : Date.ReadFault)
  | timestamp (raw : Text) (fault : Timestamp.ReadFault)
  | clock (fault : ClockFault)
  | longNumeral (digits : Nat)
  | longInteger
  | keyed (fault : Json.KeyFault)
  | absent (what : Absence)
  | notATime (value : Json)
  | undecodable (fault : Utf8.DecodeFault)
  | unencodable (fault : Utf8.EncodeFault)
  | noPlaceholder (index : Nat)
  | immutable (field : Text)
  | manifest (fault : ManifestFault)
  | storage (fault : StorageFault)

/-! ## Wording -/

/-- The wording of a configuration fault. -/
def ConfigurationFault.message : ConfigurationFault → Text
  | registryFrozen tag => "registry is frozen; cannot add " ++ tag.display
  | emptyTag => "kind tag must be non-empty"
  | alreadyRegistered tag => "kind " ++ tag.display ++ " is already registered"
  | mismatchedTag policy tag =>
    "policy " ++ policy ++ " registered under mismatched tag " ++ tag.display
  | noResolver tag => "kind " ++ tag.display ++ " has no conflict resolver"
  | unregistered kind => "item kind " ++ kind.quoted ++ " is not registered"
  | shadowedFields names _ => "payload fields shadow base fields: " ++ Text.quotedList names
  | payloadMismatch payload item _ =>
    "payload kind " ++ payload.display ++ " does not match item kind " ++ item.display

/-- What a report on a configuration fault adds to the message. -/
def ConfigurationFault.details : ConfigurationFault → Members
  | shadowedFields _ kind => [("kind", .str kind)]
  | payloadMismatch _ _ ident => [("ident", .str ident)]
  | _ => []

/-- The wording of a record that is no item. -/
def DeserializationFault.message : DeserializationFault → Text
  | undecodable e => "record is not valid JSON: " ++ e.message
  | malformed problem place =>
    "record is not valid JSON: " ++ (Json.ReadError.malformed problem place).message
  | notAnObject value => "record must be an object, got " ++ value.typeName
  | badHeader _ => "record base metadata is invalid"
  | wrongKind record payload _ =>
    "record of kind " ++ record.quoted ++ " cannot load into " ++ payload.display
  | notText kind field _ => kind ++ " field " ++ field.quoted ++ " must be a string"
  | unknownStatus value => "unknown task status " ++ value.display
  | badDeferral value => "bad deferral date " ++ value.display
  | notARecordPath path => "conflict path " ++ path.quoted ++ " is not a record path"

/-- What a report on a bad record adds to the message. -/
def DeserializationFault.details : DeserializationFault → Members
  | badHeader faults => [("errors", Report.namesJson (faults.map SchemaFault.message))]
  | wrongKind _ _ ident => [("ident", .str ident)]
  | notText _ _ value => [("value", .str value.display)]
  | _ => []

/-- The message of a deferral that is no date. -/
def deferralMessage : Text := "Deferral must be a date (YYYY-MM-DD)."

namespace ValidationFault

/-- The field errors of bad input. -/
def errors : ValidationFault → List FieldError
  | missing field => [⟨field ++ "-error", "no " ++ field⟩]
  | badDeferral => [⟨"deferred-error", deferralMessage⟩]
  | rejected errors _ => errors

/-- The wording of bad input. -/
def message : ValidationFault → Text
  | missing field => "no " ++ field
  | badDeferral => "bad deferral date"
  | rejected errors _ => Text.join "; " (errors.map FieldError.message)

/-- What a report on bad input adds to the message. -/
def details : ValidationFault → Members
  | rejected _ ident => [("ident", .str ident)]
  | _ => []

end ValidationFault

/-- The wording of a wrong use. -/
def ProgrammingFault.message : ProgrammingFault → Text
  | noActions kind _ _ => kind ++ " do action called, should never happen"
  | noDefault field => "payload field " ++ field.quoted ++ " has no default"
  | sessionOver => "world used after its session ended"
  | noRepository => "session has no repository"
  | listFlushed _ => "change list already flushed"
  | duplicateWrite ident _ => "change list already holds a write for " ++ ident.quoted
  | flushedTwice => "change list flushed twice"

/-- What a report on a wrong use adds to the message. -/
def ProgrammingFault.details : ProgrammingFault → Members
  | noActions _ ident action => [("ident", .str ident), ("action", .str action)]
  | listFlushed ident => [("ident", .str ident)]
  | duplicateWrite ident operation => [("ident", .str ident), ("op", .str operation)]
  | _ => []

/-- The wording of a conflict that needs a decision. -/
def Escalation.message (e : Escalation) : Text :=
  match e.reason with
  | .foreignSide kind ident => e.ident ++ ": side holds " ++ kind ++ "-@" ++ ident
  | .createdSeparately => e.ident ++ ": sides were created separately"
  | .contested => e.ident ++ ": both sides changed " ++ Text.join ", " e.fields
  | .manual => e.ident ++ " needs a manual merge"

/-- The wording of a bad manifest. -/
def ManifestFault.message : ManifestFault → Text
  | undecodable e => e.message
  | malformed problem place => (Json.ReadError.malformed problem place).message
  | missingKey key => key.quoted
  | notKeyed (.arr _) => "list indices must be integers or slices, not str"
  | notKeyed (.str _) => "string indices must be integers, not 'str'"
  | notKeyed value => "'" ++ value.typeName ++ "' object is not subscriptable"
  | notAName value =>
    "unsupported operand type(s) for /: 'PosixPath' and '" ++ value.typeName ++ "'"

/-- The wording of a clock that cannot be read; a count of days is told if it has 32 bits. -/
def ClockFault.message : ClockFault → Text
  | notACount value => "unsupported type for timedelta seconds component: " ++ value.typeName
  | notANumber => "cannot convert float NaN to integer"
  | endless => "cannot convert float infinity to integer"
  | tooManyDays days =>
    if -2147483648 ≤ days ∧ days < 2147483648 then
      "days=" ++ Text.ofInt days ++ "; must have magnitude <= 999999999"
    else
      "Python int too large to convert to C int"
  | calendar => "date value out of range"

/-- The wording of something that is not there. -/
def Absence.message : Absence → Text
  | content => "memoryview: a bytes-like object is required, not 'NoneType'"
  | record => noPart "decode"
  | repository => noPart "read"
  | header => noPart "base"
  | payload => noPart "data"
where
  noPart (name : Text) : Text := "'NoneType' object has no attribute '" ++ name ++ "'"

/-- The wording of a change that cannot be done. -/
def ChangeFault.message : ChangeFault → Text
  | unknownOperation name => name.quoted ++ " is not a valid SyncOperation"
  | needlessData => "delete entries carry no data"
  | missingData operation ident => operation ++ " entry for " ++ ident.quoted ++ " has no data"
  | nullInName => "embedded null byte"

namespace Failure

/-- The report on a failure of the store; other failures have none. -/
def report? : Failure → Option Report
  | configuration e => report .configuration e.message e.details []
  | deserialization e => report .deserialization e.message e.details []
  | validation e => report .validation e.message e.details e.errors
  | programming e => report .programming e.message e.details []
  | missingTemplate name path =>
    report .rendering ("template " ++ name.quoted ++ " not found") [("path", .str path)] []
  | unresolvable e => some (.make .unresolvable e.message [] [] e.ident e.fields)
  | unknownAction name =>
    report .unknownAction ("unknown action " ++ name.quoted) [("action", .str name)] []
  | itemNotFound ident =>
    some (.make .itemNotFound ("no item with ident " ++ ident.quoted) [] [] ident [])
  | _ => none
where
  report (category : Category) (message : Text) (details : Members) (errors : List FieldError) :
      Option Report :=
    some (.make category message details errors [] [])

/-- The message of a failure. -/
def message (f : Failure) : Text :=
  match f with
  | invalidHeader faults => Text.join "\n" (faults.map SchemaFault.message)
  | incomparableTimes => "can't compare offset-naive and offset-aware datetimes"
  | uncountable (.str _) => "can only concatenate str (not \"int\") to str"
  | uncountable (.arr _) => "'int' object is not iterable"
  | uncountable value => "unsupported operand type(s) for +=: '" ++ value.typeName ++ "' and 'int'"
  | recordName stem => "Invalid record stem: " ++ stem.quoted
  | change e => e.message
  | date raw .form => "Invalid isoformat string: " ++ raw.quoted
  | date _ (.range e) => e.message
  | timestamp raw e => e.message raw.quoted
  | clock e => e.message
  | longNumeral digits => (Json.ReadError.longInteger digits).message
  | longInteger =>
    "Exceeds the limit (" ++ Text.ofNat Json.digitLimit
      ++ " digits) for integer string conversion; use sys.set_int_max_str_digits() to increase "
      ++ "the limit"
  | keyed e => e.message
  | absent what => what.message
  | notATime value => "'" ++ value.typeName ++ "' object has no attribute 'isoformat'"
  | undecodable e => e.message
  | unencodable e => e.message
  | noPlaceholder index =>
    if index < Binary64.wordLimit then "list index out of range"
    else "cannot fit 'int' into an index-sized integer"
  | immutable field => field ++ " is immutable after creation"
  | manifest e => e.message
  | storage _ => []
  | f => (f.report?.map Report.message).getD []

end Failure

end RecordStore
