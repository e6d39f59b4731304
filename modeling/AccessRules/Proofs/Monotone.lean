/-
# More roles, no less access

The checks of a policy that was loaded are of three kinds: one says yes, one says no, and one asks
for a role.  None of them says no to a user who holds more roles than one to whom it says yes.  A
rule without `NOT` hands this on, and so do the ways in which rules of fields and of types combine.
So under a policy without `NOT` a user who gains roles loses no access.

A decision of a loaded service is the verdict on its request, and that is where the two users are
compared: phases, trees and remembered answers do not come into it.

* `Formula.Positive`: a formula without negation;
* `verdict_mono`: the verdict on a request under positive rules;
* `allowed_decide`: what a loaded service decides;
* `roles_monotone`: more roles, no less access.
-/
import AccessRules.Proofs.Loading
import AccessRules.Proofs.Verdict

namespace AccessRules

/-! ## 1. Positive formulas -/

namespace Formula

variable {α : Type}

/-- A formula without negation. -/
def Positive : Formula α → Prop
  | leaf _ => True
  | and l r => l.Positive ∧ r.Positive
  | or l r => l.Positive ∧ r.Positive
  | not _ => False

/-- **The value of a positive formula grows with those of its leaves.** -/
theorem Positive.value_mono {φ : Formula α} (hφ : φ.Positive) {v w : α → Bool}
    (h : ∀ a, v a = true → w a = true) : φ.value v = true → φ.value w = true := by
  induction φ with
  | leaf a => exact h a
  | and l r ihl ihr =>
    rw [value, value, Bool.and_eq_true, Bool.and_eq_true]
    exact And.imp (ihl hφ.1) (ihr hφ.2)
  | or l r ihl ihr =>
    rw [value, value, Bool.or_eq_true, Bool.or_eq_true]
    exact Or.imp (ihl hφ.1) (ihr hφ.2)
  | not c => exact hφ.elim

end Formula

/-! ## 2. The verdict under positive rules -/

/-- A text that is no rule with a negation. -/
def PositiveText (text : String) : Prop := ∀ r, Rule.parse text = .ok r → r.Positive

/-- Two values of one rule, the second no less than the first, or none of either. -/
abbrev NoLess : Option Bool → Option Bool → Prop := Option.Rel fun b b' => b = true → b' = true

theorem NoLess.getD {o o' : Option Bool} (h : NoLess o o') {b b' : Bool}
    (hb : b = true → b' = true) : o.getD b = true → o'.getD b' = true := by
  cases h with
  | some h => exact h
  | none => exact hb

section Verdict

variable {d : Dictionary} {v w : String → Bool}

/-- A declared positive rule is worth no less if its names are. -/
theorem Dictionary.ruleValue?_mono (hd : d.All PositiveText)
    (h : ∀ name, v name = true → w name = true) (typeName : String) (category : Category)
    (place : Option String) :
    NoLess (d.ruleValue? v typeName category place) (d.ruleValue? w typeName category place) := by
  rw [ruleValue?, ruleValue?]
  cases htext : d.declared? typeName category place with
  | none => exact .none
  | some text =>
    rw [Option.bind_some, Option.bind_some]
    cases hparse : Rule.parse text with
    | error e => exact .none
    | ok r => exact .some ((hd.declared htext r hparse).value_mono h)

/-- **Under positive rules the verdict grows with what the checks say.** -/
theorem Request.verdict_mono (hd : d.All PositiveText) {u u' : User} (r : Request)
    (h : ∀ name, d.affirms u r.resource r.change name = true →
      d.affirms u' r.resource r.change name = true) :
    r.verdict d u = true → r.verdict d u' = true := by
  have hrule := d.ruleValue?_mono hd h r.resource.typeName r.category
  have hentity := (hrule none).getD (@id (true = true))
  rw [verdict, verdict]
  cases r.field with
  | some field => exact (hrule (some field)).getD hentity
  | none =>
    simp only [Bool.or_eq_true, List.any_eq_true]
    refine Or.imp ?_ hentity
    rintro ⟨field, hfield, hyes⟩
    exact ⟨field, hfield, (hrule (some field)).getD id hyes⟩

end Verdict

/-! ## 3. The checks of a policy -/

namespace User

/-- Every role of the one user is a role of the other. -/
def RolesBelow (u u' : User) : Prop := ∀ role, u.holds role = true → u'.holds role = true

/-- A user who is given a list of roles holds those. -/
theorem holds_ofNames_iff {name : Option String} {roles : List String} {role : String} :
    (User.mk name (.ofNames roles)).holds role = true ↔ role ∈ roles := by
  have fold : ∀ m : NameSet,
      ((roles.map fun n => (n, ())).foldl (fun m e => m.insert e.1 e.2) m).contains role = true ↔
        role ∈ roles ∨ m.contains role = true := by
    induction roles with
    | nil => simp
    | cons r roles ih =>
      intro m
      rw [List.map_cons, List.foldl_cons, ih, SortedMap.contains, SortedMap.find?_insert,
        List.mem_cons]
      by_cases h : role = r
      · simp [h]
      · simp [h, SortedMap.contains]
  exact (fold .empty).trans (or_iff_left Bool.false_ne_true)

end User

namespace CheckBinding

variable (b : CheckBinding)

theorem steady_calm : b.procedure.Steady ∧ b.procedure.Calm := by
  cases b <;> exact ⟨fun _ _ _ => rfl, fun _ _ => ⟨_, rfl⟩⟩

/-- No check of a policy says no to a user for holding more roles. -/
theorem affirms_mono {u u' : User} (h : u.RolesBelow u') (resource : Resource)
    (change : Option Change) : b.procedure.affirms ⟨resource, change, u⟩ = true →
      b.procedure.affirms ⟨resource, change, u'⟩ = true := by
  cases b with
  | allow | deny => exact id
  | role name => exact h name

end CheckBinding

namespace PolicySettings

variable {p : PolicySettings} {d : Dictionary}

/-- Every check of a loaded policy is one of those that a policy can name. -/
theorem binding_of_check (h : p.dictionary = .ok d) {name : String} {c : Check}
    (hc : d.check? name = some c) : ∃ b : CheckBinding, c.procedure = b.procedure := by
  rw [(compile_declare (declare_of_dictionary h)).1] at hc
  refine List.foldlRecOn (motive := fun d : Dictionary =>
    ∀ q ∈ d.shelf, ∃ b : CheckBinding, q = b.procedure) p.checks.entries _
    (List.forall_mem_nil _) (fun d hd b _ => ?_) _ (Dictionary.mem_shelf_of_check? hc)
  exact List.forall_mem_append.mpr ⟨hd, List.forall_mem_singleton.mpr ⟨b.2, rfl⟩⟩

/-- What a name says to a user, it says to one with more roles. -/
theorem affirms_mono (h : p.dictionary = .ok d) {u u' : User} (hroles : u.RolesBelow u')
    (resource : Resource) (change : Option Change) (name : String) :
    d.affirms u resource change name = true → d.affirms u' resource change name = true := by
  rw [Dictionary.affirms, Dictionary.affirms]
  cases hc : d.check? name with
  | none => exact id
  | some c =>
    obtain ⟨b, hb⟩ := binding_of_check h hc
    dsimp only
    rw [hb]
    exact b.affirms_mono hroles resource _

end PolicySettings

/-! ## 4. Loaded services -/

namespace Service

variable {p : PolicySettings} {service : Service}

theorem dictionary_of_ofSettings {settings : ServerSettings}
    (h : ofSettings settings = .ok service) :
    settings.policy.dictionary = .ok service.dictionary := by
  rw [ofSettings] at h
  split at h
  · cases h
  · next d hd =>
    cases h
    exact hd

/-- **A service that was loaded decides by the verdict**, and says no about an unknown type. -/
theorem allowed_decide (h : p.dictionary = .ok service.dictionary) {r : Request}
    (hvalid : r.validate 0 = .ok ()) (u : User) (s : Session) :
    (service.decide (service.openScope u s).1 r (service.openScope u s).2).1.allowed =
      (service.dictionary.declares r.resource.typeName && r.verdict service.dictionary u) := by
  cases hd : service.dictionary.declares r.resource.typeName with
  | false =>
    have hobstacle : r.obstacle? (service.openScope u s).1 =
        some (.typeNotFound r.resource.typeName) := by
      rw [Request.obstacle?, Dictionary.obstacle?]
      exact if_neg (Bool.not_eq_true _ ▸ hd)
    rw [service.decide_of_obstacle hvalid hobstacle]
    rfl
  | true =>
    have hclear : r.obstacle? (service.openScope u s).1 = none :=
      (PolicySettings.sound_dictionary h).obstacle?_eq_none hd r.category r.field
    have hchecks : ∀ name c, service.dictionary.check? name = some c →
        c.procedure.Steady ∧ c.procedure.Calm := by
      intro name c hc
      obtain ⟨b, hb⟩ := PolicySettings.binding_of_check h hc
      rw [hb]
      exact b.steady_calm
    have htruthful : (service.openScope u s).2.Truthful (service.openScope u s).1
        ⟨r.category, r.resource, r.field, r.change⟩ :=
      Session.truthful_openRequest service.dictionary u s service.initialCapacity
    obtain ⟨diagnostic, s', hdecide⟩ :=
      service.decide_eq_verdict hchecks hvalid hclear htruthful
    rw [hdecide]
    rfl

/-- **More roles, no less access.**  Under a policy without `NOT`, what one user may, every user may
who holds all roles of the first, whatever either of them is called and whatever was decided
before. -/
theorem roles_monotone (h : p.dictionary = .ok service.dictionary)
    (hpositive : ∀ rule ∈ p.rules, PositiveText rule.2) {u u' : User} (hroles : u.RolesBelow u')
    {r : Request} (hvalid : r.validate 0 = .ok ()) (s s' : Session) :
    ∃ d d' t t', service.authorize u r s = (.ok d, t) ∧ service.authorize u' r s' = (.ok d', t') ∧
      (d.allowed = true → d'.allowed = true) := by
  obtain ⟨t, ht⟩ := service.authorize_of_validate u hvalid s
  obtain ⟨t', ht'⟩ := service.authorize_of_validate u' hvalid s'
  refine ⟨_, _, t, t', ht, ht', ?_⟩
  rw [allowed_decide h hvalid, allowed_decide h hvalid, Bool.and_eq_true, Bool.and_eq_true]
  refine And.imp_right (r.verdict_mono ?_ (PolicySettings.affirms_mono h hroles _ _))
  exact PolicySettings.all_of_declare hpositive (PolicySettings.declare_of_dictionary h)

end Service

/-- Books are read by owners, and by editors who are on the staff. -/
def Specimen.shelved : PolicySettings :=
  ⟨.ofList [("editor", .role "editor"), ("owner", .role "owner"), ("staff", .role "staff")],
    [⟨"book", .ofList [("read", "owner OR (editor AND staff)")], .empty⟩]⟩

namespace Service

/-- Ann reads as an owner, and so may Ben, who is one and an editor besides. -/
theorem roles_monotone_shelved :
    ∃ service, ofSettings ⟨.standard, .standard, Specimen.shelved⟩ = .ok service ∧
      (service.authorize ⟨some "ann", .ofNames ["owner"]⟩ (Specimen.asking "book")
        .initial).1.map (·.allowed) = .ok true ∧
      (service.authorize ⟨some "ben", .ofNames ["editor", "owner"]⟩ (Specimen.asking "book")
        .initial).1.map (·.allowed) = .ok true := by
  have hpositive : ∀ rule ∈ Specimen.shelved.rules, PositiveText rule.2 := by
    refine List.forall_mem_cons.mpr ⟨fun r hr => ?_, List.forall_mem_nil _⟩
    cases hr
    exact ⟨trivial, trivial, trivial⟩
  have hroles : User.RolesBelow ⟨some "ann", .ofNames ["owner"]⟩
      ⟨some "ben", .ofNames ["editor", "owner"]⟩ := by
    intro role h
    rw [User.holds_ofNames_iff, List.mem_singleton] at h
    rw [User.holds_ofNames_iff, h]
    decide
  obtain ⟨service, hservice, hann⟩ :
      ∃ service, ofSettings ⟨.standard, .standard, Specimen.shelved⟩ = .ok service ∧
        (service.authorize ⟨some "ann", .ofNames ["owner"]⟩ (Specimen.asking "book")
          .initial).1.map (·.allowed) = .ok true := ⟨_, rfl, rfl⟩
  obtain ⟨d, d', t, t', hd, hd', hmore⟩ := roles_monotone (dictionary_of_ofSettings hservice)
    hpositive hroles (r := Specimen.asking "book") (by rfl) .initial .initial
  refine ⟨service, hservice, hann, ?_⟩
  rw [hd] at hann
  rw [hd']
  exact congrArg Except.ok (hmore (Except.ok.inj hann))

end Service

end AccessRules
