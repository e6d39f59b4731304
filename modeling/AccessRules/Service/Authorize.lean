/-
# The authorization service

A service takes both phases of a decision at once.  Every call is a request of its own: it opens
new answers, which the decisions of a batch share.  The book of rules outlives the call.

A decision that cannot be taken is a no, and carries the text of the failure.
-/
import AccessRules.Decision.TwoPhase
import AccessRules.Service.Request
import AccessRules.Settings.Policy

namespace AccessRules

/-- What stays the same from call to call. -/
structure Service where
  dictionary : Dictionary
  initialCapacity : Nat
  showsDiagnostics : Bool

namespace Service

/-! ## 1. Making a service -/

/-- The service of a dictionary. -/
def ofDictionary (d : Dictionary) : Service := ⟨d, Answers.defaultCapacity, true⟩

/-- The service that settings describe. -/
def ofSettings (s : ServerSettings) : Except SettingsError Service :=
  match s.policy.dictionary with
  | .error p => .error (.invalid p)
  | .ok d => .ok ⟨d, s.engine.initialCapacity, s.engine.showsDiagnostics⟩

/-! ## 2. One decision -/

/-- Takes both phases and returns the text of the last tree that was committed. -/
def evaluate (scope : RequestScope) (r : Request) (s : Session) :
    Except Failure (Option String) × Session :=
  let start := TwoPhase.begin scope
  let (previewed, phases, s) :=
    match r.field with
    | some field => start.checkField r.resource r.category field r.change s
    | none => start.checkWhole r.resource r.category s
  match previewed with
  | .error f => (.error f, s)
  | .ok () =>
    match phases.commit s with
    | (.error f, _, s) => (.error f, s)
    | (.ok trees, _, s) => (.ok (trees.getLast?.map Tree.text), s)

/-- The decision that was taken, with its report. -/
def conclude (service : Service) (r : Request) (allowed : Bool) (diagnostic : Option String)
    (s : Session) : Decision × Session :=
  (⟨allowed, if service.showsDiagnostics then diagnostic else none, none⟩,
    s.report (.decided r.resource.text r.category r.field allowed))

/-- Decides one request. -/
def decide (service : Service) (scope : RequestScope) (r : Request) (s : Session) :
    Decision × Session :=
  match evaluate scope r s with
  | (.ok diagnostic, s) => service.conclude r true diagnostic s
  | (.error (.forbidden _ _ diagnostic), s) => service.conclude r false (some diagnostic) s
  | (.error f, s) =>
    (⟨false, none, some f.message⟩, s.report (.failedClosed r.resource.text r.category f))

/-- Decides requests one after the other. -/
def decideAll (service : Service) (scope : RequestScope) :
    List Request → Session → List Decision × Session
  | [], s => ([], s)
  | r :: rs, s =>
    let (d, s) := service.decide scope r s
    let (ds, s) := decideAll service scope rs s
    (d :: ds, s)

/-! ## 3. Calls -/

/-- Opens a request for a user. -/
def openScope (service : Service) (user : User) (s : Session) : RequestScope × Session :=
  let (request, s) := s.openRequest service.initialCapacity
  (⟨service.dictionary, user, request⟩, s)

/-- Decides one request in a call of its own. -/
def authorize (service : Service) (user : User) (r : Request) (s : Session) :
    Except AdmissionError Decision × Session :=
  match r.validate 0 with
  | .error e => (.error e, s)
  | .ok () =>
    let (scope, s) := service.openScope user s
    let (d, s) := service.decide scope r s
    (.ok d, s)

/-- Decides a batch of requests in one call. -/
def authorizeBatch (service : Service) (user : User) (rs : List Request) (s : Session) :
    Except AdmissionError (List Decision) × Session :=
  match Request.validateBatch rs with
  | .error e => (.error e, s)
  | .ok () =>
    let (scope, s) := service.openScope user s
    let (ds, s) := service.decideAll scope rs s
    let answers := s.answers scope.request
    (.ok ds, s.report (.batchDecided rs.length answers.hits answers.evaluations))

/-- The outline of a service. -/
def outline (service : Service) (s : Session) : String :=
  Text.outline "AuthorizationHandler" [("compiler", s.book.outline),
    ("cache_config", Answers.outlineCapacity service.initialCapacity),
    ("include_diagnostics", Text.outlineBool service.showsDiagnostics)]

end Service

end AccessRules
