/-
# A batch is admitted as a whole or not at all

Nothing is decided before every request of a batch has been looked at.  A batch that is turned away
leaves the session as it was, so no check has been asked and no rule has been read for it; a batch
that is admitted gets one decision for each request, whatever becomes of them.

* `Request.Malformed`: a request that cannot be decided as it is put;
* `Request.validateFrom_eq_error_iff`: of several such requests the first one is named;
* `Request.validateBatch_cases`: what decides about a batch.
-/
import AccessRules.Proofs.Decision

namespace AccessRules

namespace Request

/-! ## 1. One request -/

/-- A request that cannot be decided as it is put: it names no type, or a field without a name, or
its change is to something else than what it asks about. -/
def Malformed (r : Request) : Prop :=
  r.resource.typeName = "" ∨ r.field = some "" ∨ ∃ c, r.change = some c ∧ r.field ≠ some c.field

section One

variable {r : Request} {index : Nat}

/-- A fault is found exactly in the requests that have one. -/
theorem fault?_eq_none_iff : r.fault? = none ↔ ¬ r.Malformed := by
  unfold fault? Malformed
  by_cases htype : r.resource.typeName = ""
  · simp [htype]
  · by_cases hfield : r.field = some ""
    · simp [htype, hfield]
    · cases hchange : r.change with
      | none => simp [htype, hfield]
      | some c => simp [htype, hfield]

theorem validate_eq_ok_iff : r.validate index = .ok () ↔ ¬ r.Malformed := by
  rw [← fault?_eq_none_iff]
  unfold validate
  cases r.fault? <;> simp

/-- An error about a request names the place of the request. -/
theorem validate_eq_error {e : AdmissionError} (h : r.validate index = .error e) :
    r.Malformed ∧ ∃ fault, e = .invalidRequest index fault := by
  constructor
  · by_contra hnot
    rw [validate_eq_ok_iff.mpr hnot] at h
    cases h
  · unfold validate at h
    cases hfault : r.fault? with
    | none => simp [hfault] at h
    | some fault =>
      rw [hfault] at h
      exact ⟨fault, (Except.error.inj h).symm⟩

end One

/-! ## 2. Requests one after the other -/

section Several

variable {rs : List Request} {n : Nat} {e : AdmissionError}

theorem validateFrom_eq_ok_iff : validateFrom n rs = .ok () ↔ ∀ r ∈ rs, ¬ r.Malformed := by
  induction rs generalizing n with
  | nil => simp [validateFrom]
  | cons r rs ih =>
    have hr : r.validate n = .ok () ↔ ¬ r.Malformed := validate_eq_ok_iff
    have hrs : validateFrom (n + 1) rs = .ok () ↔ ∀ r ∈ rs, ¬ r.Malformed := ih
    rw [List.forall_mem_cons, ← hr, ← hrs, validateFrom]
    cases r.validate n <;> simp

/-- **The first request that is at fault is the one that is named**, with the error that it gets at
its place. -/
theorem validateFrom_eq_error_iff : validateFrom n rs = .error e ↔
    ∃ i r, rs[i]? = some r ∧ r.validate (n + i) = .error e ∧ ∀ x ∈ rs.take i, ¬ x.Malformed := by
  induction rs generalizing n with
  | nil => simp [validateFrom]
  | cons r rs ih =>
    unfold validateFrom
    cases hr : r.validate n with
    | error e' =>
      constructor
      · intro h
        exact ⟨0, r, rfl, hr.trans h, by simp⟩
      · rintro ⟨_ | i, x, hx, herror, hbefore⟩
        · obtain rfl : r = x := by simpa using hx
          exact hr.symm.trans herror
        · exact absurd (validate_eq_error hr).1 (hbefore r (by simp))
    | ok =>
      have hfine : ¬ r.Malformed := validate_eq_ok_iff.mp hr
      simp only [ih]
      constructor
      · rintro ⟨i, x, hx, herror, hbefore⟩
        refine ⟨i + 1, x, hx, ?_, ?_⟩
        · rwa [show n + (i + 1) = n + 1 + i by omega]
        · simpa [hfine] using hbefore
      · rintro ⟨_ | i, x, hx, herror, hbefore⟩
        · obtain rfl : r = x := by simpa using hx
          rw [Nat.add_zero, hr] at herror
          cases herror
        · refine ⟨i, x, hx, ?_, fun y hy => hbefore y (by simp [hy])⟩
          rwa [show n + 1 + i = n + (i + 1) by omega]

/-- Of several requests one is named exactly if one is at fault. -/
theorem exists_validateFrom_eq_error_iff (n : Nat) :
    (∃ e, validateFrom n rs = .error e) ↔ ∃ r ∈ rs, r.Malformed := by
  have hok : validateFrom n rs = .ok () ↔ ∀ r ∈ rs, ¬ r.Malformed := validateFrom_eq_ok_iff
  cases h : validateFrom n rs with
  | ok =>
    have hall := hok.mp h
    simpa using hall
  | error e =>
    rw [h] at hok
    simpa using hok

end Several

/-! ## 3. Batches -/

section Batches

variable {rs : List Request} {n : Nat}

/-- An error about one of several requests is no error about their number. -/
theorem invalidRequest_of_validateFrom {e : AdmissionError} (h : validateFrom n rs = .error e) :
    ∃ index fault, e = .invalidRequest index fault := by
  obtain ⟨i, r, -, herror, -⟩ := validateFrom_eq_error_iff.mp h
  exact ⟨_, (validate_eq_error herror).2⟩

theorem validateFrom_ne_emptyBatch : validateFrom n rs ≠ .error .emptyBatch := by
  intro h
  obtain ⟨_, _, hother⟩ := invalidRequest_of_validateFrom h
  cases hother

theorem validateFrom_ne_batchTooLarge (size : Nat) :
    validateFrom n rs ≠ .error (.batchTooLarge size) := by
  intro h
  obtain ⟨_, _, hother⟩ := invalidRequest_of_validateFrom h
  cases hother

/-- **A batch is empty, too large, or goes by its requests.** -/
theorem validateBatch_cases (rs : List Request) :
    (rs = [] ∧ validateBatch rs = .error .emptyBatch) ∨
    (rs ≠ [] ∧ maxBatchSize < rs.length ∧
      validateBatch rs = .error (.batchTooLarge rs.length)) ∨
    (rs ≠ [] ∧ rs.length ≤ maxBatchSize ∧ validateBatch rs = validateFrom 0 rs) := by
  unfold validateBatch
  by_cases hne : rs = []
  · simp [hne]
  · by_cases hlarge : maxBatchSize < rs.length
    · simp [hne, hlarge]
    · have hsize : rs.length ≤ maxBatchSize := by omega
      simp [hne, hlarge, hsize]

theorem validateBatch_eq_emptyBatch_iff : validateBatch rs = .error .emptyBatch ↔ rs = [] := by
  rcases validateBatch_cases rs with ⟨rfl, h⟩ | ⟨hne, -, h⟩ | ⟨hne, -, h⟩
  · simp [h]
  · simp [h, hne]
  · simp [h, hne, validateFrom_ne_emptyBatch]

theorem validateBatch_eq_batchTooLarge_iff {size : Nat} :
    validateBatch rs = .error (.batchTooLarge size) ↔
      maxBatchSize < rs.length ∧ size = rs.length := by
  rcases validateBatch_cases rs with ⟨rfl, h⟩ | ⟨-, hlarge, h⟩ | ⟨-, hsize, h⟩
  · simp [h]
  · simp [h, hlarge, eq_comm]
  · have hsmall : ¬ maxBatchSize < rs.length := by omega
    simp [h, hsmall, validateFrom_ne_batchTooLarge]

/-- Only the requests of a batch that is neither empty nor too large are looked at. -/
theorem validateBatch_eq_invalidRequest_iff {index : Nat} {fault : RequestFault} :
    validateBatch rs = .error (.invalidRequest index fault) ↔
      rs ≠ [] ∧ rs.length ≤ maxBatchSize ∧
        validateFrom 0 rs = .error (.invalidRequest index fault) := by
  rcases validateBatch_cases rs with ⟨rfl, h⟩ | ⟨-, hlarge, h⟩ | ⟨hne, hsize, h⟩
  · simp [h]
  · have hnot : ¬ rs.length ≤ maxBatchSize := by omega
    simp [h, hnot]
  · simp [h, hne, hsize]

theorem validateBatch_eq_ok_iff : validateBatch rs = .ok () ↔
    rs ≠ [] ∧ rs.length ≤ maxBatchSize ∧ ∀ r ∈ rs, ¬ r.Malformed := by
  rcases validateBatch_cases rs with ⟨rfl, h⟩ | ⟨-, hlarge, h⟩ | ⟨hne, hsize, h⟩
  · simp [h]
  · have hnot : ¬ rs.length ≤ maxBatchSize := by omega
    simp [h, hnot]
  · simp [h, hne, hsize, validateFrom_eq_ok_iff]

end Batches

end Request

/-! ## 4. Calls -/

namespace Service

variable (service : Service) (user : User) {rs : List Request} {s : Session}

/-- A batch that is turned away is turned away with the session as it was. -/
theorem authorizeBatch_of_refused {e : AdmissionError} (h : Request.validateBatch rs = .error e) :
    service.authorizeBatch user rs s = (.error e, s) := by
  unfold authorizeBatch
  rw [h]

/-- A call fails exactly if its batch is turned away. -/
theorem authorizeBatch_eq_error_iff {e : AdmissionError} :
    (service.authorizeBatch user rs s).1 = .error e ↔ Request.validateBatch rs = .error e := by
  cases h : Request.validateBatch rs with
  | error e' => simp [service.authorizeBatch_of_refused user h]
  | ok =>
    obtain ⟨s', hcall⟩ := service.authorizeBatch_of_validate user h s
    simp [hcall]

/-- **A batch is admitted as a whole or not at all.**  It is turned away if it is empty, if it is
too large whatever its requests are, and otherwise if one of them is malformed; then the first one
that is gets named, with the error that it gets at its place.  A batch that is turned away leaves
the whole session as it was: its book of rules, what was asked and what was reported.  Any other
batch gets a decision for each of its requests, in their order. -/
theorem authorizeBatch_all_or_nothing (rs : List Request) (s : Session) :
    let call := service.authorizeBatch user rs s
    (call.1 = .error .emptyBatch ↔ rs = []) ∧
    (∀ size, call.1 = .error (.batchTooLarge size) ↔
      maxBatchSize < rs.length ∧ size = rs.length) ∧
    ((∃ index fault, call.1 = .error (.invalidRequest index fault)) ↔
      rs ≠ [] ∧ rs.length ≤ maxBatchSize ∧ ∃ r ∈ rs, r.Malformed) ∧
    (∀ index fault, call.1 = .error (.invalidRequest index fault) →
      ∃ r, rs[index]? = some r ∧ r.Malformed ∧ (∀ x ∈ rs.take index, ¬ x.Malformed) ∧
        r.validate index = .error (.invalidRequest index fault)) ∧
    (∀ e, call.1 = .error e → call.2 = s) ∧
    (rs ≠ [] → rs.length ≤ maxBatchSize → (∀ r ∈ rs, ¬ r.Malformed) →
      ∃ ds, call.1 = .ok ds ∧ List.Forall₂ (fun r d =>
        ∃ t, d = (service.decide (service.openScope user s).1 r t).1) rs ds) := by
  intro call
  have herror : ∀ {e}, call.1 = .error e ↔ Request.validateBatch rs = .error e :=
    service.authorizeBatch_eq_error_iff user
  refine ⟨?_, fun size => ?_, ?_, fun index fault h => ?_, fun e h => ?_, fun hne hsize hall => ?_⟩
  · rw [herror]
    exact Request.validateBatch_eq_emptyBatch_iff
  · rw [herror]
    exact Request.validateBatch_eq_batchTooLarge_iff
  · simp only [herror, Request.validateBatch_eq_invalidRequest_iff,
      ← Request.exists_validateFrom_eq_error_iff 0]
    constructor
    · rintro ⟨index, fault, hne, hsize, h⟩
      exact ⟨hne, hsize, _, h⟩
    · rintro ⟨hne, hsize, e, h⟩
      obtain ⟨index, fault, rfl⟩ := Request.invalidRequest_of_validateFrom h
      exact ⟨index, fault, hne, hsize, h⟩
  · obtain ⟨-, -, hfrom⟩ := Request.validateBatch_eq_invalidRequest_iff.mp (herror.mp h)
    obtain ⟨i, r, hr, hvalidate, hbefore⟩ := Request.validateFrom_eq_error_iff.mp hfrom
    obtain ⟨hmalformed, _, hplace⟩ := Request.validate_eq_error hvalidate
    rw [Nat.zero_add] at hvalidate hplace
    obtain ⟨rfl, -⟩ : index = i ∧ fault = _ := by simpa using hplace
    exact ⟨r, hr, hmalformed, hbefore, hvalidate⟩
  · rw [show call = (.error e, s) from service.authorizeBatch_of_refused user (herror.mp h)]
  · have hvalid := Request.validateBatch_eq_ok_iff.mpr ⟨hne, hsize, hall⟩
    obtain ⟨s', hcall⟩ := service.authorizeBatch_of_validate user hvalid s
    refine ⟨_, congrArg Prod.fst hcall, ?_⟩
    exact service.decideAll_forall (I := fun _ => True) (fun r _ t _ => ⟨⟨t, rfl⟩, trivial⟩)
      trivial

/-- Of three requests the last two of which are malformed the second one is named; two requests for
types that nobody declared get two decisions. -/
theorem authorizeBatch_all_or_nothing_specimen :
    let service := Service.ofDictionary Specimen.dictionary
    let ghost : Request := .whole ⟨"ghost", some "1", Supply.nth 1, .empty⟩ .read
    let malformed := [Specimen.request, ghost.withField "", { Specimen.request with field := none }]
    service.authorizeBatch .anonymous malformed .initial =
      (.error (.invalidRequest 1 .emptyField), .initial) ∧
    ∃ ds, (service.authorizeBatch .anonymous [ghost, ghost] .initial).1 = .ok ds ∧
      ds.map Decision.error = [some "type not found: ghost", some "type not found: ghost"] := by
  intro service ghost malformed
  obtain ⟨-, -, -, -, hkept, -⟩ :=
    service.authorizeBatch_all_or_nothing .anonymous malformed .initial
  have herror : (service.authorizeBatch .anonymous malformed .initial).1 =
      .error (.invalidRequest 1 .emptyField) := by rfl
  obtain ⟨-, -, -, -, -, hdecided⟩ :=
    service.authorizeBatch_all_or_nothing .anonymous [ghost, ghost] .initial
  obtain ⟨ds, hds, -⟩ := hdecided (by simp) (by decide)
    (by simp [Request.Malformed, ghost, Request.whole])
  have hshown : (service.authorizeBatch .anonymous [ghost, ghost] .initial).1.toOption.map
      (List.map Decision.error) =
      some [some "type not found: ghost", some "type not found: ghost"] := by rfl
  rw [hds] at hshown
  exact ⟨Prod.ext herror (hkept _ herror), ds, hds, Option.some.inj hshown⟩

end Service

end AccessRules
