/-
# Requests and decisions

A request asks for a category on a resource, or on one field of it, perhaps with a change to that
field.  A decision says yes or no; a no that stands for a failure carries its text.

A request is admitted if its type and field are not empty and its change, if it has one, is to the
field it asks about.  A batch is admitted if it is neither empty nor too large and every request in
it is.
-/
import AccessRules.Subject.Basic

namespace AccessRules

/-! ## 1. Requests -/

/-- One question to the service. -/
structure Request where
  resource : Resource
  category : Category
  field : Option String
  change : Option Change

namespace Request

/-- The question about a resource as a whole. -/
def whole (resource : Resource) (category : Category) : Request := ⟨resource, category, none, none⟩

/-- Narrows the question to a field. -/
def withField (r : Request) (field : String) : Request := { r with field := some field }

/-- Attaches a change and narrows the question to the field it changes. -/
def withChange (r : Request) (change : Change) : Request :=
  { r with field := some change.field, change := some change }

end Request

/-! ## 2. Decisions -/

/-- The answer to one question. -/
structure Decision where
  allowed : Bool
  /-- The text of the tree that decided. -/
  diagnostic : Option String
  /-- The failure that kept the question from being decided. -/
  error : Option String
  deriving DecidableEq

/-! ## 3. Admission -/

/-- The most requests in one batch. -/
def maxBatchSize : Nat := 50

/-- What is wrong with a request. -/
inductive RequestFault where
  | emptyType
  | emptyField
  /-- The change is to another field than the request. -/
  | otherField (changed : String) (requested : Option String)
  deriving DecidableEq

/-- The wording of a fault. -/
def RequestFault.message : RequestFault → String
  | emptyType => "resource type cannot be empty"
  | emptyField => "field cannot be empty"
  | otherField changed requested =>
    "change targets field '" ++ changed ++ "' but request targets " ++
      match requested with
      | some f => "'" ++ f ++ "'"
      | none => "the whole resource"

/-- Why requests are turned away. -/
inductive AdmissionError where
  | emptyBatch
  | batchTooLarge (size : Nat)
  | invalidRequest (index : Nat) (fault : RequestFault)
  deriving DecidableEq

/-- The wording of an error. -/
def AdmissionError.message : AdmissionError → String
  | emptyBatch => "batch request cannot be empty"
  | batchTooLarge size =>
    "batch size " ++ toString size ++ " exceeds maximum allowed " ++ toString maxBatchSize
  | invalidRequest index fault =>
    "invalid request at index " ++ toString index ++ ": " ++ fault.message

/-- What is wrong with a request, if anything is. -/
def Request.fault? (r : Request) : Option RequestFault :=
  if r.resource.typeName = "" then some .emptyType
  else if r.field = some "" then some .emptyField
  else
    match r.change with
    | none => none
    | some c => if r.field = some c.field then none else some (.otherField c.field r.field)

/-- Admits a request that stands at a place of a batch. -/
def Request.validate (r : Request) (index : Nat) : Except AdmissionError Unit :=
  match r.fault? with
  | some fault => .error (.invalidRequest index fault)
  | none => .ok ()

/-- Admits the requests of a batch from a place on, up to the first that is at fault. -/
def Request.validateFrom (index : Nat) : List Request → Except AdmissionError Unit
  | [] => .ok ()
  | r :: rs =>
    match r.validate index with
    | .error e => .error e
    | .ok () => validateFrom (index + 1) rs

/-- Admits a batch. -/
def Request.validateBatch (requests : List Request) : Except AdmissionError Unit :=
  if requests.isEmpty then .error .emptyBatch
  else if maxBatchSize < requests.length then .error (.batchTooLarge requests.length)
  else validateFrom 0 requests

end AccessRules
