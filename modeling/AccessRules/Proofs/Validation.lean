/-
# What validation promises

Settings are looked at in three places that know nothing of each other: where they are validated,
where the log is set up, and where the policy is loaded.  Validation compares the level in full
lower case, the log in plain lower case; validation and loading each look for blank categories, and
only loading reads the rules.

What passes validation is good for both others, but for its rules.  For no letter but the plain ones
comes to a letter of a level's name.

* `validate_eq_ok_iff`: what validation looks at;
* `PolicySettings.compiles_iff`: which rules can be used;
* `usable_of_validate`: the log and the service of settings that pass.
-/
import AccessRules.Log.Filter
import AccessRules.Proofs.LetterCase
import AccessRules.Proofs.Loading

namespace AccessRules

/-! ## 1. The log -/

/-- The names of levels differ, in any case. -/
theorem Level.eq_of_lowerAscii_name {a b : Level}
    (h : Text.lowerAscii a.name = Text.lowerAscii b.name) : a = b := by
  revert h
  cases a <;> cases b <;> decide +kernel

namespace LogSettings

variable {l : LogSettings}

/-- A name that settings may use is that of a level, and all its letters are telling. -/
theorem level_of_mem_levelNames : ∀ name ∈ levelNames,
    (∃ level ∈ Level.all, Text.lowerAscii level.name = name) ∧
      ∀ c ∈ name.toList, c ∈ Text.tellingSmall := by
  have hlevel : ∀ name ∈ levelNames, ∃ level ∈ Level.all, Text.lowerAscii level.name = name := by
    decide +kernel
  have hletters : ∀ name ∈ levelNames, name.toList.all Text.tellingSmall.contains := by
    decide +kernel
  intro name hname
  refine ⟨hlevel name hname, fun c hc => ?_⟩
  exact List.contains_iff_mem.mp (List.all_eq_true.mp (hletters name hname) c hc)

/-- **A level that passes validation is one of the five in plain letters of either case.** -/
theorem level_of_problem? (h : l.problem? = none) :
    ∃ level ∈ Level.all, Text.lowerAscii level.name = Text.lowerAscii l.level := by
  have hmem : Text.lower l.level ∈ levelNames := by
    rw [problem?] at h
    split at h
    · next hcontains => exact List.contains_iff_mem.mp hcontains
    · cases h
  obtain ⟨⟨level, hlevel, hname⟩, htelling⟩ := level_of_mem_levelNames _ hmem
  exact ⟨level, hlevel, hname.trans (Text.lowerAscii_of_lower htelling).symm⟩

/-- The log reads the level that has the name. -/
theorem parse?_of_name {level : Level} (hlevel : level ∈ Level.all)
    (hname : Text.lowerAscii level.name = Text.lowerAscii l.level) :
    Level.parse? l.level = some level := by
  have hnamed : Level.named? l.level = some level := by
    cases hfound : Level.named? l.level with
    | none =>
      have hmiss := List.find?_eq_none.mp hfound level hlevel
      rw [hname, beq_self_eq_true] at hmiss
      exact absurd rfl hmiss
    | some other =>
      rw [Level.named?] at hfound
      have hother := List.find?_some hfound
      rw [beq_iff_eq] at hother
      rw [Level.eq_of_lowerAscii_name (hother.trans hname.symm)]
  rw [Level.parse?, hnamed]

end LogSettings

/-! ## 2. What validation looks at -/

namespace ServerSettings

theorem validate_eq_ok_iff {s : ServerSettings} : s.validate = .ok () ↔
    s.log.problem? = none ∧ (∀ c ∈ s.policy.checks.entries, c.2.problem? c.1 = none) ∧
      ∀ e ∈ s.policy.entities, e.problem? = none := by
  have hproblem : s.validate = .ok () ↔ s.problem? = none := by
    rw [validate]
    cases s.problem? <;> simp
  rw [hproblem, problem?, ← List.findSome?_eq_none_iff, ← List.findSome?_eq_none_iff]
  cases s.log.problem? with
  | some p => simp
  | none => cases s.policy.checks.entries.findSome? fun c => c.2.problem? c.1 <;> simp

end ServerSettings

/-- The keys of an entity without a problem name categories. -/
theorem EntityRules.named_of_problem? (e : EntityRules) (h : e.problem? = none) :
    ∀ key ∈ e.categories, Text.isBlank key = false := by
  rw [problem?] at h
  split at h
  · cases h
  · split at h
    · cases h
    · next hany => simpa using hany

/-! ## 3. Rules that can be used -/

namespace PolicySettings

variable {p : PolicySettings}

/-- A check of the policy has the name, but for the white space between its words. -/
def Configures (p : PolicySettings) (name : String) : Prop :=
  ∃ c ∈ p.checks.entries, Text.collapse c.1 = name

/-- The text is a rule, and all names in it are configured. -/
def Usable (p : PolicySettings) (text : String) : Prop :=
  ∃ r, Rule.parse text = .ok r ∧ ∀ name ∈ r.leaves, p.Configures name

theorem mem_checkNames_addCheck (d : Dictionary) (name : String) (q : Procedure) (words : String) :
    words ∈ (d.addCheck name q).checkNames ↔
      words ∈ d.checkNames ∨ Text.collapse name = words := by
  rw [Dictionary.checkNames, Dictionary.checkNames, ← SortedMap.isSome_find?_iff,
    ← SortedMap.isSome_find?_iff, Dictionary.addCheck, SortedMap.find?_insert]
  split
  · next h => simp [h]
  · next h => simp [Ne.symm h]

/-- The bound names are those of the checks of the policy. -/
theorem mem_checkNames_iff {words : String} :
    words ∈ p.checkDictionary.checkNames ↔ p.Configures words := by
  have hfold : ∀ (l : List (String × CheckBinding)) (d : Dictionary),
      words ∈ (l.foldl (fun d c => d.addCheck c.1 c.2.procedure) d).checkNames ↔
        words ∈ d.checkNames ∨ ∃ c ∈ l, Text.collapse c.1 = words := by
    intro l
    induction l with
    | nil => simp
    | cons c l ih =>
      intro d
      rw [List.foldl_cons, ih, mem_checkNames_addCheck, or_assoc, List.exists_mem_cons_iff]
  have hempty : words ∉ Dictionary.empty.checkNames := List.not_mem_nil
  rw [checkDictionary, hfold]
  exact or_iff_right hempty

/-- A name that was read is not bound exactly if it is not configured. -/
theorem isNone_check?_iff {text name : String} {r : Rule} (hread : Rule.parse text = .ok r)
    (hname : name ∈ r.leaves) :
    (p.checkDictionary.check? name).isNone ↔ ¬ p.Configures name := by
  rw [checkDictionary_keeps.1.isNone_check?, (Rule.canonical_of_parse hread name hname).collapse,
    ← mem_checkNames_iff, Bool.not_eq_true', ← Bool.not_eq_true, List.contains_iff_mem]

/-- **A rule compiles exactly if it can be read and all its names are configured.** -/
theorem compiles_iff {text : String} :
    (∃ bound, p.checkDictionary.compile text = .ok bound) ↔ p.Usable text := by
  rw [← errorOf_eq_none, Dictionary.errorOf_compile, Usable]
  cases hread : Rule.parse text with
  | error e => simp
  | ok r =>
    simp only [Option.map_eq_none_iff, List.find?_eq_none, Except.ok.injEq, exists_eq_left']
    refine forall₂_congr fun name hname => ?_
    rw [isNone_check?_iff hread hname, not_not]

/-- What a policy that cannot be loaded says of a rule of its own: its text is no rule, or it has a
name that is not configured. -/
inductive Blames (p : PolicySettings) (rule : RulePlace × String) : SettingsProblem → Prop where
  | unreadable {e : RuleError} (h : Rule.parse rule.2 = .error e) :
      Blames p rule (.invalidRule rule.1 e)
  | unconfigured {r : Rule} {name : String} (hread : Rule.parse rule.2 = .ok r)
      (hname : name ∈ r.leaves) (hmissing : ¬ p.Configures name) :
      Blames p rule (.unknownCheck rule.1 name p.checkDictionary.checkNames)

theorem Blames.of_offence {rule : RulePlace × String} {e : RuleError} {problem : SettingsProblem}
    (h : p.checkDictionary.Offence rule.1 rule.2 e problem) : p.Blames rule problem := by
  cases h with
  | unreadable hread => exact .unreadable hread
  | @unbound r before after name hread hleaves _ hname =>
    have hmem : name ∈ r.leaves := by
      rw [hleaves]
      exact List.mem_append_right before List.mem_cons_self
    exact .unconfigured hread hmem ((isNone_check?_iff hread hmem).mp (by rw [hname]; rfl))

end PolicySettings

/-! ## 4. The log and the service of valid settings -/

namespace Service

theorem exists_ofSettings_iff {s : ServerSettings} :
    (∃ service, ofSettings s = .ok service) ↔ ∃ d, s.policy.dictionary = .ok d := by
  rw [ofSettings]
  cases s.policy.dictionary <;> simp

theorem ofSettings_eq_error {s : ServerSettings} {e : SettingsError}
    (h : ofSettings s = .error e) :
    ∃ problem, s.policy.dictionary = .error problem ∧ e = .invalid problem := by
  rw [ofSettings] at h
  split at h
  · next problem hproblem =>
    cases h
    exact ⟨problem, hproblem, rfl⟩
  · cases h

end Service

namespace ServerSettings

/-- **Settings that pass validation can be used, but for their rules.**  The log is set up, with the
one level that has the name in the settings when plain capitals count as small letters.  A service
is made exactly if all rules can be used; if it is not, the reason is a rule that cannot be read or
a name in it that is not configured. -/
theorem usable_of_validate {s : ServerSettings} (h : s.validate = .ok ()) :
    (∃ level, LogConfig.ofSettings s.log = .ok ⟨s.log.json, level⟩ ∧
      ∀ other : Level,
        Text.lowerAscii other.name = Text.lowerAscii s.log.level ↔ other = level) ∧
    ((∃ service, Service.ofSettings s = .ok service) ↔
      ∀ rule ∈ s.policy.rules, s.policy.Usable rule.2) ∧
    ∀ e, Service.ofSettings s = .error e →
      ∃ rule ∈ s.policy.rules, ∃ problem, s.policy.Blames rule problem ∧ e = .invalid problem := by
  obtain ⟨hlog, -, hentities⟩ := validate_eq_ok_iff.mp h
  have hkeys : s.policy.KeysNamed := fun e he => e.named_of_problem? (hentities e he)
  refine ⟨?_, ?_, fun e he => ?_⟩
  · obtain ⟨level, hlevel, hname⟩ := LogSettings.level_of_problem? hlog
    refine ⟨level, ?_, fun other => ⟨fun hother => ?_, fun hother => hother ▸ hname⟩⟩
    · rw [LogConfig.ofSettings, LogSettings.parse?_of_name hlevel hname]
    · exact Level.eq_of_lowerAscii_name (hother.trans hname.symm)
  · rw [Service.exists_ofSettings_iff, PolicySettings.exists_dictionary_iff]
    simp only [PolicySettings.compiles_iff, hkeys, true_and]
  · obtain ⟨problem, hproblem, rfl⟩ := Service.ofSettings_eq_error he
    obtain ⟨before, rule, after, e, hrules, -, -, hoffence⟩ :=
      (PolicySettings.dictionary_eq_error_iff hkeys).mp hproblem
    refine ⟨rule, ?_, problem, .of_offence hoffence, rfl⟩
    rw [hrules]
    exact List.mem_append_right before List.mem_cons_self

end ServerSettings

/-- Valid settings with a level in mixed case and a rule that names a check nobody configured. -/
def Specimen.astray : ServerSettings :=
  ⟨.standard, ⟨"WaRn", true⟩, ⟨.ofList [("is  owner", .role "owner")],
    [⟨"book", .ofList [("ſhare", "is owner")],
      .ofList [("title", .ofList [("read", "is lost")])]⟩]⟩⟩

namespace ServerSettings

/-- The log of the specimen warns, and no service is made for want of a check. -/
theorem usable_of_validate_astray :
    Specimen.astray.validate = .ok () ∧
    LogConfig.ofSettings Specimen.astray.log = .ok ⟨true, .warn⟩ ∧
    Service.ofSettings Specimen.astray =
      .error (.invalid (.unknownCheck ⟨"book", some "title", "read"⟩ "is lost" ["is owner"])) ∧
    ∃ rule ∈ Specimen.astray.policy.rules, ¬ Specimen.astray.policy.Usable rule.2 := by
  have hvalid : Specimen.astray.validate = .ok () := by rfl
  have herror : Service.ofSettings Specimen.astray = .error (.invalid
      (.unknownCheck ⟨"book", some "title", "read"⟩ "is lost" ["is owner"])) := by rfl
  obtain ⟨⟨level, hlog, hlevel⟩, hservice, -⟩ := usable_of_validate hvalid
  have hwarn : Level.warn = level := (hlevel .warn).mp (by decide +kernel)
  refine ⟨hvalid, ?_, herror, ?_⟩
  · rw [hlog, ← hwarn]
    rfl
  · by_contra hall
    push Not at hall
    obtain ⟨service, hok⟩ := hservice.mpr hall
    rw [herror] at hok
    cases hok

end ServerSettings

end AccessRules
