/-
# What is exchanged comes back as it was

A value is written in one way and read in many: members may be missing or come with others that
nobody asked for, a built-in category may be an object, and an identifier has four forms in either
case.  Reading settles all of that.  What was read is written in the one form that is written
(`RoundTrips`), and what is read of an object depends on the values of its members and on nothing
else (`ReadsMembers`).

* `InstanceId.parse?_of_form`: every form of the digits stands for the identifier;
* `Resource.ofJson?_toJson` and its like: what was written is read, and nothing is drawn for it;
* `exchange_roundTrips`: all kinds of values that are exchanged.
-/
import AccessRules.Proofs.Records
import AccessRules.Exchange.Decision
import AccessRules.Exchange.Settings

namespace AccessRules

/-! ## 1. Identifiers -/

namespace InstanceId

/-- Digits with hyphens in the canonical places. -/
def grouped (cs : List Char) : List Char :=
  cs.take 8 ++ '-' :: (cs.drop 8).take 4 ++ '-' :: (cs.drop 12).take 4 ++
    '-' :: (cs.drop 16).take 4 ++ '-' :: cs.drop 20

/-- The permitted forms of digits. -/
inductive Form (cs : List Char) : List Char → Prop
  | plain : Form cs cs
  | hyphens : Form cs (grouped cs)
  | braces : Form cs ('{' :: grouped cs ++ ['}'])
  | urn (lead : List Char) (h : lead.map Char.toLower = urnLead) : Form cs (lead ++ grouped cs)

variable {cs : List Char} {u : InstanceId}

theorem length_of_mapM {ds : List (Fin 16)} (h : cs.mapM digitOf? = some ds) :
    cs.length = ds.length := by
  induction cs generalizing ds with
  | nil =>
    obtain rfl : [] = ds := by simpa using h
    rfl
  | cons c cs ih =>
    simp only [List.mapM_cons, Option.bind_eq_bind, Option.bind_eq_some_iff] at h
    obtain ⟨d, -, rest, hrest, hds⟩ := h
    obtain rfl : d :: rest = ds := by simpa using hds
    simp [ih hrest]

theorem length_grouped (h : cs.length = 32) : (grouped cs).length = 36 := by
  simp [grouped, h]

/-- Taking the hyphens out again leaves the digits. -/
theorem ofGroups?_grouped (h : cs.length = 32) : ofGroups? (grouped cs) = ofDigits? cs := by
  have hplaces : (grouped cs)[8]? = some '-' ∧ (grouped cs)[13]? = some '-' ∧
      (grouped cs)[18]? = some '-' ∧ (grouped cs)[23]? = some '-' := by
    simp [grouped, h]
  have hrest : ∀ n k, (cs.drop n).take k ++ cs.drop (n + k) = cs.drop n := by
    intro n k
    rw [← List.drop_drop, List.take_append_drop]
  have hdigits : (grouped cs).take 8 ++ ((grouped cs).drop 9).take 4 ++
      ((grouped cs).drop 14).take 4 ++ ((grouped cs).drop 19).take 4 ++ (grouped cs).drop 24 =
        cs := by
    simp [grouped, List.drop_append, List.drop_eq_nil_of_le, h, hrest]
  rw [ofGroups?, if_pos hplaces, hdigits]

theorem ofDigits?_of_mapM (h : cs.mapM digitOf? = some u.digits) : ofDigits? cs = some u := by
  simp [ofDigits?, h, u.length_eq]

/-- **Every permitted form of the digits stands for the identifier.** -/
theorem parse?_of_form {text : List Char} (h : cs.mapM digitOf? = some u.digits)
    (hform : Form cs text) : parse? (String.ofList text) = some u := by
  have hlength : cs.length = 32 := (length_of_mapM h).trans u.length_eq
  have hgrouped : (grouped cs).length = 36 := length_grouped hlength
  have hread : ofGroups? (grouped cs) = some u := by
    rw [ofGroups?_grouped hlength, ofDigits?_of_mapM h]
  unfold parse?
  rw [String.toList_ofList]
  cases hform with
  | plain => simp [hlength, ofDigits?_of_mapM h]
  | hyphens => simp [hgrouped, hread]
  | braces => simp [hgrouped, hread, List.getLast?_cons]
  | urn lead hlead =>
    have hlong : urnLead.length = 9 := by decide
    have hnine : lead.length = urnLead.length := by simpa using congrArg List.length hlead
    simp [hgrouped, hread, hnine, hlong, hlead]

/-- The canonical text stands for the identifier. -/
theorem parse?_text (u : InstanceId) : parse? u.text = some u := by
  have hdigits : (u.digits.map digitChar).mapM digitOf? = some u.digits :=
    mapM_map_of_forall digitOf?_digitChar u.digits
  have htext : u.text = String.ofList (grouped (u.digits.map digitChar)) := rfl
  rw [htext]
  exact parse?_of_form hdigits .hyphens

theorem ofJson?_string (s : String) : ofJson? (.string s) = parse? s := by
  simp [ofJson?, Json.string?]

theorem ofJson?_text (u : InstanceId) : ofJson? (.string u.text) = some u := by
  rw [ofJson?_string, parse?_text]

end InstanceId

/-! ## 2. What was written is read -/

section Written

attribute [local simp] Members.required_named Members.optional_named Members.defaulted_named
  Members.find? SortedMap.findEntry Source.nullable?_ofText?

theorem Json.string?_string (t : String) : string? (.string t) = some t := rfl

theorem Category.ofJson?_toJson (c : Category) : ofJson? c.toJson = some c := by
  cases c <;> rfl

theorem Resource.ofJson?_toJson (r : Resource) (s : Supply) :
    ofJson? r.toJson s = some (r, s) := by
  simp [toJson, ofJson?, instanceOf?, Json.string?, InstanceId.ofJson?_text,
    Source.tableOf?_ofMap]

theorem Change.ofJson?_toJson (c : Change) (s : Supply) : ofJson? c.toJson s = some (c, s) := by
  simp [toJson, ofJson?, Resource.ofJson?_toJson, Json.string?]

/-- A change is never written as null. -/
theorem Change.nullableOfJson?_map (c : Option Change) (s : Supply) :
    nullableOfJson? ((c.map toJson).getD .null) s = some (c, s) := by
  cases c with
  | none => rfl
  | some c =>
    have hread : ofJson? c.toJson s = some (c, s) := ofJson?_toJson c s
    have hnull : c.toJson.isNull = false := rfl
    simp [nullableOfJson?, hread, hnull]

theorem User.ofJson?_toJson (u : User) : ofJson? u.toJson = some u := by
  have hroles : Source.listOf? Json.string? (.array (u.roles.names.map .string)) =
      some u.roles.names := Source.listOf?_map Json.string?_string _
  simp [toJson, ofJson?, hroles, NameSet.ofNames_names]

theorem Request.ofJson?_toJson (r : Request) (s : Supply) :
    ofJson? r.toJson s = some (r, s) := by
  simp [toJson, ofJson?, Resource.ofJson?_toJson, Category.ofJson?_toJson,
    Change.nullableOfJson?_map]

theorem Decision.ofJson?_toJson (d : Decision) : ofJson? d.toJson = some d := by
  simp [toJson, ofJson?, Json.bool?]

theorem Decision.listOfJson?_listToJson (ds : List Decision) :
    listOfJson? (listToJson ds) = some ds := by
  simp [listToJson, listOfJson?, Source.listOf?_map ofJson?_toJson]

theorem CheckBinding.ofSource?_toJson (b : CheckBinding) : ofSource? b.toJson = some b := by
  cases b <;> simp [toJson, ofSource?]

theorem ruleTextsOf?_ruleTextsJson (m : SortedMap String) :
    ruleTextsOf? (ruleTextsJson m) = some m := Source.tableOf?_map Json.string?_string m

theorem EntityRules.ofSource?_toJson (e : EntityRules) : ofSource? e.toJson = some e := by
  have hfields := Source.tableOf?_map ruleTextsOf?_ruleTextsJson e.fields
  simp [toJson, ofSource?, ruleTextsOf?_ruleTextsJson, hfields]

theorem PolicySettings.ofSource?_toJson (p : PolicySettings) : ofSource? p.toJson = some p := by
  have hchecks := Source.tableOf?_map CheckBinding.ofSource?_toJson p.checks
  have hentities := Source.listOf?_map EntityRules.ofSource?_toJson p.entities
  simp [toJson, ofSource?, hchecks, hentities]

theorem EngineSettings.ofSource?_toJson (e : EngineSettings) : ofSource? e.toJson = some e := by
  simp [toJson, ofSource?]

theorem LogSettings.ofSource?_toJson (l : LogSettings) : ofSource? l.toJson = some l := by
  simp [toJson, ofSource?]

theorem ServerSettings.ofSource?_toJson (s : ServerSettings) : ofSource? s.toJson = some s := by
  simp [toJson, ofSource?, EngineSettings.ofSource?_toJson, LogSettings.ofSource?_toJson,
    PolicySettings.ofSource?_toJson]

end Written

/-! ## 3. What a record is read from -/

/-- A built-in category may come as an object. -/
theorem Category.ofJson?_null (name : String) :
    ofJson? (.object [(name, .null)]) = ofJson? (.string name) := by
  unfold ofJson?
  split
  · simp_all
  · -- null is no name
    simp_all
  · simp_all
  · next hnull => exact absurd rfl (hnull name)

variable {α : Type}

/-- A reader that draws no identifiers. -/
def drawless (read : Json → Option α) (v : Json) (s : Supply) : Option (α × Supply) :=
  (read v).map (·, s)

/-- Of an object nothing is read but the values under these names, where the fields of `d` stand in
for those that are missing. -/
def ReadsMembers (read : Json → Supply → Option (α × Supply)) (names : List String)
    (d : List (String × Json)) : Prop :=
  ∀ l l', (∀ name ∈ names, Members.Agree d l l' name) →
    ∀ s, read (.object l) s = read (.object l') s

theorem Resource.readsMembers : ReadsMembers ofJson?
    ["type_name", "id", "instance", "attributes"] [("id", .null), ("attributes", .object [])] := by
  intro l l' h s
  simp only [List.forall_mem_cons] at h
  obtain ⟨htype, hid, hinstance, hattributes, -⟩ := h
  have hdrawn : instanceOf? (.named l) s = instanceOf? (.named l') s := by
    rw [instanceOf?, hinstance.find? rfl, instanceOf?]
  simp [ofJson?, htype.required rfl, hid.optional rfl, hdrawn,
    hattributes.defaulted (v := .object []) rfl]

theorem Change.readsMembers : ReadsMembers ofJson?
    ["resource", "field", "original", "modified"] [] := by
  intro l l' h s
  simp only [List.forall_mem_cons] at h
  obtain ⟨hresource, hfield, hbefore, hafter, -⟩ := h
  simp [ofJson?, hresource.required rfl, hfield.required rfl, hbefore.required rfl,
    hafter.required rfl]

theorem User.readsMembers : ReadsMembers (drawless ofJson?) ["name", "roles"]
    [("name", .null), ("roles", .array [])] := by
  intro l l' h s
  simp only [List.forall_mem_cons] at h
  obtain ⟨hname, hroles, -⟩ := h
  simp [drawless, ofJson?, hname.optional rfl, hroles.defaulted (v := .array []) rfl]

theorem Request.readsMembers : ReadsMembers ofJson? ["resource", "category", "field", "change"]
    [("field", .null), ("change", .null)] := by
  intro l l' h s
  simp only [List.forall_mem_cons] at h
  obtain ⟨hresource, hcategory, hfield, hchange, -⟩ := h
  simp [ofJson?, hresource.required rfl, hcategory.required rfl, hfield.defaulted (v := .null) rfl,
    hchange.defaulted (v := .null) rfl]

theorem Decision.readsMembers : ReadsMembers (drawless ofJson?)
    ["allowed", "diagnostic", "error"] [("diagnostic", .null), ("error", .null)] := by
  intro l l' h s
  simp only [List.forall_mem_cons] at h
  obtain ⟨hallowed, hdiagnostic, herror, -⟩ := h
  simp [drawless, ofJson?, hallowed.required rfl, hdiagnostic.optional rfl, herror.optional rfl]

theorem Decision.listReadsMembers : ReadsMembers (drawless listOfJson?) ["decisions"] [] := by
  intro l l' h s
  simp only [List.forall_mem_cons] at h
  simp [drawless, listOfJson?, h.1.required rfl]

theorem CheckBinding.readsMembers : ReadsMembers (drawless ofSource?) ["kind", "role"]
    [("role", .string "")] := by
  intro l l' h s
  simp only [List.forall_mem_cons] at h
  obtain ⟨hkind, hrole, -⟩ := h
  simp [drawless, ofSource?, hkind.required rfl, hrole.defaulted (v := .string "") rfl]

theorem PolicySettings.readsMembers : ReadsMembers (drawless ofSource?) ["checks", "entities"]
    [("checks", .object []), ("entities", .array [])] := by
  intro l l' h s
  simp only [List.forall_mem_cons] at h
  obtain ⟨hchecks, hentities, -⟩ := h
  simp [drawless, ofSource?, hchecks.defaulted (v := .object []) rfl,
    hentities.defaulted (v := .array []) rfl]

/-- Missing sections read as the standard ones. -/
theorem ServerSettings.readsMembers : ReadsMembers (drawless ofSource?)
    ["engine", "logging", "policy"]
    [("engine", EngineSettings.standard.toJson), ("logging", LogSettings.standard.toJson),
      ("policy", PolicySettings.standard.toJson)] := by
  intro l l' h s
  simp only [List.forall_mem_cons] at h
  obtain ⟨hengine, hlog, hpolicy, -⟩ := h
  simp [drawless, ofSource?,
    hengine.defaulted (v := EngineSettings.standard.toJson) rfl,
    hlog.defaulted (v := LogSettings.standard.toJson) rfl,
    hpolicy.defaulted (v := PolicySettings.standard.toJson) rfl,
    EngineSettings.ofSource?_toJson, LogSettings.ofSource?_toJson,
    PolicySettings.ofSource?_toJson]

/-! ## 4. The round trip -/

/-- What is written comes back, and what was read in any way is written in a way that comes back;
for that no identifier is drawn. -/
structure RoundTrips (read : Json → Supply → Option (α × Supply)) (write : α → Json) : Prop where
  written : ∀ v s, read (write v) s = some (v, s)
  settled : ∀ j s v s', read j s = some (v, s') → ∀ t, read (write v) t = some (v, t)

theorem roundTrips_of_written {read : Json → Supply → Option (α × Supply)} {write : α → Json}
    (h : ∀ v s, read (write v) s = some (v, s)) : RoundTrips read write :=
  ⟨h, fun _ _ v _ _ t => h v t⟩

theorem roundTrips_drawless {read : Json → Option α} {write : α → Json}
    (h : ∀ v, read (write v) = some v) : RoundTrips (drawless read) write :=
  roundTrips_of_written fun v s => by simp [drawless, h]

/-- **Everything that is exchanged comes back as it was.**  The first part says so of each kind of
value.  The others say how much of what is read is left behind: of a record all but the values of
its members, with the given ones for those that are missing; of a category whether it came as a
string or as an object with null; of an identifier the form and the case of its digits. -/
theorem exchange_roundTrips :
    (RoundTrips Resource.ofJson? Resource.toJson ∧
      RoundTrips Change.ofJson? Change.toJson ∧
      RoundTrips (drawless User.ofJson?) User.toJson ∧
      RoundTrips (drawless Category.ofJson?) Category.toJson ∧
      RoundTrips Request.ofJson? Request.toJson ∧
      RoundTrips (drawless Decision.ofJson?) Decision.toJson ∧
      RoundTrips (drawless Decision.listOfJson?) Decision.listToJson ∧
      RoundTrips (drawless CheckBinding.ofSource?) CheckBinding.toJson ∧
      RoundTrips (drawless PolicySettings.ofSource?) PolicySettings.toJson ∧
      RoundTrips (drawless ServerSettings.ofSource?) ServerSettings.toJson) ∧
    (ReadsMembers Resource.ofJson? ["type_name", "id", "instance", "attributes"]
        [("id", .null), ("attributes", .object [])] ∧
      ReadsMembers Change.ofJson? ["resource", "field", "original", "modified"] [] ∧
      ReadsMembers (drawless User.ofJson?) ["name", "roles"]
        [("name", .null), ("roles", .array [])] ∧
      ReadsMembers Request.ofJson? ["resource", "category", "field", "change"]
        [("field", .null), ("change", .null)] ∧
      ReadsMembers (drawless Decision.ofJson?) ["allowed", "diagnostic", "error"]
        [("diagnostic", .null), ("error", .null)] ∧
      ReadsMembers (drawless Decision.listOfJson?) ["decisions"] [] ∧
      ReadsMembers (drawless CheckBinding.ofSource?) ["kind", "role"] [("role", .string "")] ∧
      ReadsMembers (drawless PolicySettings.ofSource?) ["checks", "entities"]
        [("checks", .object []), ("entities", .array [])] ∧
      ReadsMembers (drawless ServerSettings.ofSource?) ["engine", "logging", "policy"]
        [("engine", EngineSettings.standard.toJson), ("logging", LogSettings.standard.toJson),
          ("policy", PolicySettings.standard.toJson)]) ∧
    (∀ name, Category.ofJson? (.object [(name, .null)]) = Category.ofJson? (.string name)) ∧
    (∀ (u : InstanceId) (cs text : List Char), cs.mapM InstanceId.digitOf? = some u.digits →
      InstanceId.Form cs text → InstanceId.ofJson? (.string (String.ofList text)) = some u) := by
  refine ⟨⟨?_, ?_, ?_, ?_, ?_, ?_, ?_, ?_, ?_, ?_⟩, ⟨?_, ?_, ?_, ?_, ?_, ?_, ?_, ?_, ?_⟩, ?_, ?_⟩
  · exact roundTrips_of_written Resource.ofJson?_toJson
  · exact roundTrips_of_written Change.ofJson?_toJson
  · exact roundTrips_drawless User.ofJson?_toJson
  · exact roundTrips_drawless Category.ofJson?_toJson
  · exact roundTrips_of_written Request.ofJson?_toJson
  · exact roundTrips_drawless Decision.ofJson?_toJson
  · exact roundTrips_drawless Decision.listOfJson?_listToJson
  · exact roundTrips_drawless CheckBinding.ofSource?_toJson
  · exact roundTrips_drawless PolicySettings.ofSource?_toJson
  · exact roundTrips_drawless ServerSettings.ofSource?_toJson
  · exact Resource.readsMembers
  · exact Change.readsMembers
  · exact User.readsMembers
  · exact Request.readsMembers
  · exact Decision.readsMembers
  · exact Decision.listReadsMembers
  · exact CheckBinding.readsMembers
  · exact PolicySettings.readsMembers
  · exact ServerSettings.readsMembers
  · exact Category.ofJson?_null
  · intro u cs text hdigits hform
    rw [InstanceId.ofJson?_string, InstanceId.parse?_of_form hdigits hform]

/-- A request with a built-in category as an object, an identifier in capitals between braces, a
field that is no member, and nothing about field and change. -/
def Specimen.loose : Json :=
  .object [("category", .object [("Read", .null)]), ("note", .bool true),
    ("resource", .object [("instance", .string "\x7b00000000-0000-4000-8000-0000000000AF\x7d"),
      ("type_name", .string "book")])]

/-- However loosely a request was written, it is settled once it was read. -/
theorem exchange_roundTrips_loose :
    ∃ r, Request.ofJson? Specimen.loose .initial = some (r, .initial) ∧ r.category = .read ∧
      r.field = none ∧ r.resource.instanceId.text = "00000000-0000-4000-8000-0000000000af" ∧
      ∀ t, Request.ofJson? r.toJson t = some (r, t) := by
  obtain ⟨⟨-, -, -, -, hrequest, -⟩, -⟩ := exchange_roundTrips
  have hshown : (Request.ofJson? Specimen.loose .initial).map (fun r =>
      (r.1.category, r.1.field, r.1.resource.instanceId.text, r.2)) =
        some (.read, none, "00000000-0000-4000-8000-0000000000af", .initial) := by rfl
  cases hread : Request.ofJson? Specimen.loose .initial with
  | none =>
    rw [hread] at hshown
    cases hshown
  | some read =>
    obtain ⟨r, s⟩ := read
    rw [hread] at hshown
    simp only [Option.map_some, Option.some.injEq, Prod.mk.injEq] at hshown
    obtain ⟨hcategory, hfield, hinstance, rfl⟩ := hshown
    exact ⟨r, rfl, hcategory, hfield, hinstance, hrequest.settled _ _ r _ hread⟩

end AccessRules
