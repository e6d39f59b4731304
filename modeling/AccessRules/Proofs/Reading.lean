/-
# What a book of rules holds

A book keeps every rule that it reads, so that it need not read a text twice.  Nothing else may come
of it: whatever was read before, against whatever dictionaries, a text is parsed and bound as if by
a new book.  What a book holds is read off the log of its uses: the texts that are rules among those
read since it was last emptied, be their names bound or not.

A service never empties its book and reads nothing but what its dictionary declares.  So its book
never outgrows the policy.

* `compile_eq_ok_iff`, `compile_eq_error_iff`: what binding a text comes to;
* `Kept.use`: what one use keeps;
* `Grown.perform`: what a call to a service reads;
* `book_invisible`: any history of a book, and any sequence of calls.
-/
import AccessRules.Proofs.Bookkeeping
import AccessRules.Proofs.Building
import AccessRules.Proofs.Isolation
import AccessRules.Proofs.Loading

namespace AccessRules

/-! ## 1. Binding without a book -/

namespace Dictionary

variable {d : Dictionary} {text : String}

/-- **A text is bound exactly if it is a rule and all its names are.** -/
theorem compile_eq_ok_iff : (∃ bound, d.compile text = .ok bound) ↔
    ∃ r, Rule.parse text = .ok r ∧ ∀ name ∈ r.leaves, (d.check? name).isSome := by
  rw [← errorOf_eq_none, errorOf_compile]
  cases hparse : Rule.parse text with
  | error e => simp
  | ok r => simp [Option.isSome_iff_ne_none]

/-- **The error of a text is what is wrong with it as a rule**, or else that the leftmost name which
is not bound is unknown. -/
theorem compile_eq_error_iff {e : RuleError} : d.compile text = .error e ↔
    Rule.parse text = .error e ∨ ∃ r before name after, Rule.parse text = .ok r ∧
      r.leaves = before ++ name :: after ∧ (∀ n ∈ before, (d.check? n).isSome) ∧
      d.check? name = none ∧ e = ⟨.unknownCheck name, none⟩ := by
  rw [← errorOf_eq_some, errorOf_compile]
  cases hparse : Rule.parse text with
  | error e' => simp
  | ok r =>
    simp only [Option.map_eq_some_iff, List.find?_eq_some_iff_append, reduceCtorEq, false_or,
      Except.ok.injEq]
    constructor
    · rintro ⟨name, ⟨hname, before, after, hleaves, hbefore⟩, rfl⟩
      refine ⟨r, before, name, after, rfl, hleaves, fun n hn => ?_, by simpa using hname, rfl⟩
      simpa [Option.isSome_iff_ne_none] using hbefore n hn
    · rintro ⟨r', before, name, after, rfl, hleaves, hbefore, hname, rfl⟩
      refine ⟨name, ⟨by simp [hname], before, after, hleaves, fun n hn => ?_⟩, rfl⟩
      simpa [Option.isSome_iff_ne_none] using hbefore n hn

end Dictionary

/-! ## 2. Uses of a book -/

namespace RuleBook

/-- The ways in which a book is used. -/
inductive Use where
  | read (text : String)
  | bind (dictionary : Dictionary) (text : String)
  | clear

/-- What a use comes to. -/
inductive Reply where
  | parsed (outcome : Except RuleError Rule)
  | bound (outcome : Except RuleError BoundRule)
  | cleared

/-- Uses a book. -/
def use (b : RuleBook) : Use → Reply × RuleBook
  | .read text => (b.read text).map .parsed id
  | .bind d text => (b.bind d text).map .bound id
  | .clear => (.cleared, b.clear)

/-- Uses a book several times. -/
def useAll (b : RuleBook) : List Use → List Reply × RuleBook
  | [] => ([], b)
  | u :: us =>
    let (reply, b) := b.use u
    let (replies, b) := b.useAll us
    (reply :: replies, b)

namespace Use

/-- What a use comes to without any book. -/
def anew : Use → Reply
  | read text => .parsed (Rule.parse text)
  | bind d text => .bound (d.compile text)
  | clear => .cleared

/-- The text that a use reads. -/
def text? : Use → Option String
  | read text | bind _ text => some text
  | clear => none

/-- Whether a use empties the book. -/
def clears : Use → Bool
  | clear => true
  | _ => false

end Use

/-- **A book does not show in what a use comes to.** -/
theorem use_fst (b : RuleBook) (u : Use) : (b.use u).1 = u.anew := by
  cases u with
  | read text => exact congrArg Reply.parsed (b.read_fst text)
  | bind d text => exact congrArg Reply.bound (b.bind_fst d text)
  | clear => rfl

theorem useAll_fst (b : RuleBook) (log : List Use) : (b.useAll log).1 = log.map Use.anew := by
  induction log generalizing b with
  | nil => rfl
  | cons u log ih => exact congrArg₂ List.cons (b.use_fst u) (ih _)

/-! ## 3. What is kept -/

/-- The log since the book was last emptied. -/
def sinceCleared (log : List Use) : List Use := log.rtakeWhile fun u => !u.clears

/-- Whether a text is a rule. -/
def isRule (text : String) : Bool := (Rule.parse text).toOption.isSome

/-- The texts that are rules among those read since the book was last emptied. -/
def kept (log : List Use) : Finset String :=
  (((sinceCleared log).filterMap Use.text?).filter isRule).toFinset

theorem kept_concat (log : List Use) (u : Use) (text : String) :
    text ∈ kept (log ++ [u]) ↔
      u.clears = false ∧ (text ∈ kept log ∨ u.text? = some text ∧ isRule text = true) := by
  cases u with
  | clear => simp [kept, sinceCleared, Use.clears]
  | read t | bind _ t => simp [kept, sinceCleared, Use.clears, Use.text?, eq_comm (a := t)]

/-- What a book holds after a log of uses: one page for each text that is kept. -/
structure Kept (log : List Use) (b : RuleBook) : Prop where
  nodup : (Assoc.keys b.pages).Nodup
  found : ∀ text, (Assoc.find? text b.pages).isSome ↔ text ∈ kept log

theorem kept_empty : Kept [] .empty where
  nodup := .nil
  found text := by simp [empty, Assoc.find?, kept, sinceCleared]

/-- Reading a text keeps it, if it is a rule, beside what was there already. -/
theorem Kept.read {log : List Use} {b : RuleBook} (h : Kept log b) {u : Use} {text : String}
    (htext : u.text? = some text) (hclears : u.clears = false) :
    Kept (log ++ [u]) (b.read text).2 := by
  cases hfind : Assoc.find? text b.pages with
  | some r =>
    -- what is found was read before
    have hread : (b.read text).2 = b := by simp [RuleBook.read, hfind]
    rw [hread]
    refine ⟨h.nodup, fun other => ?_⟩
    have hknown : text ∈ kept log := (h.found text).mp (Option.isSome_of_eq_some hfind)
    rw [h.found, kept_concat, htext, hclears]
    simp only [true_and, Option.some.injEq, iff_self_or, and_imp]
    rintro rfl -
    exact hknown
  | none =>
    have hread : (b.read text).2.pages =
        ((Rule.parse text).toOption.elim b.pages fun r => Assoc.insert text r b.pages) := by
      simp only [RuleBook.read, hfind]
      split <;> simp_all [keep, Except.toOption]
    cases hparse : Rule.parse text with
    | error e =>
      have hnot : isRule text = false := by simp [isRule, hparse, Except.toOption]
      rw [hparse] at hread
      refine ⟨by rw [hread]; exact h.nodup, fun other => ?_⟩
      rw [hread, kept_concat, htext, hclears]
      simp only [true_and, Option.some.injEq]
      refine (h.found other).trans (iff_self_or.mpr ?_)
      rintro ⟨rfl, hrule⟩
      rw [hnot] at hrule
      cases hrule
    | ok r =>
      have hrule : isRule text = true := by simp [isRule, hparse, Except.toOption]
      rw [hparse] at hread
      refine ⟨by rw [hread]; exact Assoc.nodup_keys_insert text r h.nodup, fun other => ?_⟩
      rw [hread, kept_concat, htext, hclears]
      simp only [true_and, Option.some.injEq, Except.toOption, Option.elim_some, Assoc.find?_insert]
      split
      · next heq => simp [heq, hrule]
      · next hne => simp [h.found, Ne.symm hne]

/-- **One use keeps what the log says.** -/
theorem Kept.use {log : List Use} {b : RuleBook} (h : Kept log b) (u : Use) :
    Kept (log ++ [u]) (b.use u).2 := by
  cases u with
  | read text => exact h.read rfl rfl
  | bind d text =>
    have hbind : (b.use (.bind d text)).2 = (b.read text).2 := b.bind_snd d text
    rw [hbind]
    exact h.read rfl rfl
  | clear =>
    refine ⟨.nil, fun text => ?_⟩
    rw [kept_concat]
    simp [RuleBook.use, RuleBook.clear, Assoc.find?, Use.clears]

/-- Any number of uses do. -/
theorem Kept.useAll {log : List Use} {b : RuleBook} (h : Kept log b) (log' : List Use) :
    Kept (log ++ log') (b.useAll log').2 := by
  induction log' generalizing log b with
  | nil => simpa [RuleBook.useAll] using h
  | cons u log' ih =>
    rw [List.append_cons]
    exact ih (h.use u)

/-- The book holds as many rules as texts are kept. -/
theorem Kept.size_eq {log : List Use} {b : RuleBook} (h : Kept log b) :
    b.size = (kept log).card := by
  obtain ⟨found, hfound, hlength⟩ := Assoc.exists_card_eq_length h.nodup
  have hkept : found = kept log := by
    ext text
    rw [hfound, h.found]
  rw [size, hlength, hkept]

end RuleBook

/-! ## 4. The texts of a dictionary -/

/-- The rule texts of a type or field. -/
def RuleTexts.texts (rules : RuleTexts) : List String :=
  (Assoc.keys rules).filterMap fun category => Assoc.find? category rules

theorem RuleTexts.mem_texts_iff {rules : RuleTexts} {text : String} :
    text ∈ rules.texts ↔ ∃ category, Assoc.find? category rules = some text := by
  rw [texts, List.mem_filterMap]
  refine exists_congr fun category => and_iff_right_of_imp fun h => ?_
  exact Assoc.mem_keys_iff.mpr (Option.isSome_of_eq_some h)

/-- The rule texts of a declaration. -/
def Declaration.texts (t : Declaration) : List String :=
  t.rules.texts ++ t.fields.entries.flatMap fun f => f.2.texts

namespace Dictionary

/-- All rule texts of a dictionary. -/
def texts (d : Dictionary) : List String := d.types.entries.flatMap fun t => t.2.texts

/-- **The texts of a dictionary are those that are declared somewhere.** -/
theorem mem_texts_iff {d : Dictionary} {text : String} : text ∈ d.texts ↔
    ∃ typeName category place, d.declared? typeName category place = some text := by
  simp only [texts, Declaration.texts, List.mem_flatMap, List.mem_append,
    RuleTexts.mem_texts_iff]
  constructor
  · rintro ⟨⟨typeName, t⟩, ht, ⟨category, h⟩ | ⟨⟨field, rules⟩, hf, category, h⟩⟩
    · refine ⟨typeName, category, none, ?_⟩
      rw [declared?, ruleText?, SortedMap.find?_of_mem ht, Option.bind_some, h]
    · refine ⟨typeName, category, some field, ?_⟩
      rw [declared?, fieldRuleText?, SortedMap.find?_of_mem ht, Option.bind_some,
        SortedMap.find?_of_mem hf, Option.bind_some, h]
  · rintro ⟨typeName, category, place, h⟩
    cases place with
    | none =>
      obtain ⟨t, ht, hrule⟩ := Option.bind_eq_some_iff.mp h
      exact ⟨_, SortedMap.mem_of_find? ht, .inl ⟨category, hrule⟩⟩
    | some field =>
      obtain ⟨t, ht, hfield⟩ := Option.bind_eq_some_iff.mp h
      obtain ⟨rules, hrules, hrule⟩ := Option.bind_eq_some_iff.mp hfield
      exact ⟨_, SortedMap.mem_of_find? ht,
        .inr ⟨_, SortedMap.mem_of_find? hrules, category, hrule⟩⟩

/-- A book that has read more, but nothing that the dictionary does not declare. -/
def Grown (d : Dictionary) (b b' : RuleBook) : Prop :=
  ∃ texts, (∀ text ∈ texts, text ∈ d.texts) ∧ b' = b.readAll texts

namespace Grown

variable {d : Dictionary} {b b' b'' : RuleBook}

theorem refl (d : Dictionary) (b : RuleBook) : d.Grown b b := ⟨[], List.forall_mem_nil _, rfl⟩

theorem trans (h : d.Grown b b') (h' : d.Grown b' b'') : d.Grown b b'' := by
  obtain ⟨texts, htexts, rfl⟩ := h
  obtain ⟨texts', htexts', rfl⟩ := h'
  exact ⟨texts ++ texts', List.forall_mem_append.mpr ⟨htexts, htexts'⟩,
    (b.readAll_append texts texts').symm⟩

/-- Consulting places reads what is declared there. -/
theorem of_consulted {typeName : String} {category : Category} {places : List (Option String)}
    {f : Option Failure} (h : d.Consulted typeName category places b f b') : d.Grown b b' := by
  have hdeclared : ∀ qs : List (Option String),
      ∀ text ∈ qs.filterMap (d.declared? typeName category), text ∈ d.texts := by
    intro qs text htext
    obtain ⟨q, -, hq⟩ := List.mem_filterMap.mp htext
    exact mem_texts_iff.mpr ⟨_, _, q, hq⟩
  cases h with
  | through _ => exact ⟨_, hdeclared places, rfl⟩
  | stopped _ _ declared _ =>
    refine ⟨_, List.forall_mem_append.mpr ⟨hdeclared _, ?_⟩, rfl⟩
    exact List.forall_mem_singleton.mpr (mem_texts_iff.mpr ⟨_, _, _, declared⟩)

end Grown

end Dictionary

/-! ## 5. What a service reads -/

/-- Asking checks reads no rule. -/
theorem Tree.book_evaluate (t : Tree) (s : Session) : (t.evaluate s).state.book = s.book :=
  evaluateWith_related (R := fun s s' : Session => s'.book = s.book) (fun _ => rfl)
    (fun h h' => h'.trans h) t (fun l _ s => Session.book_ask l s) s

theorem Tree.book_require (t : Tree) (s : Session) : (t.require s).2.2.book = s.book := by
  have h := t.book_evaluate s
  rw [require, allows]
  cases (t.evaluate s).result with
  | error f => exact h
  | ok st => cases st <;> exact h

/-- Taking a plan reads no rule. -/
theorem Plan.book_take (plan : Plan) (s : Session) : (plan.take s).2.book = s.book := by
  have hpreview := plan.preview.book_require s
  rw [take]
  generalize plan.preview.require s = previewed at hpreview ⊢
  obtain ⟨f | _, t, s₁⟩ := previewed
  · exact hpreview
  · have hcommit := plan.commit.book_require (s₁.report (.committing 1))
    dsimp only
    generalize plan.commit.require (s₁.report (.committing 1)) = committed at hcommit ⊢
    obtain ⟨f | _, t', s₂⟩ := committed
    · exact hcommit.trans hpreview
    · exact hcommit.trans hpreview

/-- Planning reads consulted rules. -/
theorem RequestScope.grown_plan (scope : RequestScope) (resource : Resource) (category : Category)
    (field : Option String) (change : Option Change) (s : Session) :
    scope.dictionary.Grown s.book (scope.plan resource category field change s).2.book := by
  have h : scope.Planned resource category field change s.book _ _ := planned_plan s
  generalize scope.plan resource category field change s = planned at h ⊢
  obtain ⟨outcome, s'⟩ := planned
  dsimp only at h ⊢
  generalize s'.book = book at h ⊢
  cases h with
  | undeclared _ => exact .refl _ _
  | refused _ consulted => exact .of_consulted consulted
  | made _ consulted => exact .of_consulted consulted

namespace Service

variable (service : Service) (scope : RequestScope)

/-- **A decision reads nothing that is not declared.** -/
theorem grown_decide (r : Request) (s : Session) :
    scope.dictionary.Grown s.book (service.decide scope r s).2.book := by
  have hevaluate : (service.decide scope r s).2.book = (evaluate scope r s).2.book := by
    rw [decide]
    split <;> next h => rw [h]; rfl
  have hplan := scope.grown_plan r.resource r.category r.field (r.field.bind fun _ => r.change) s
  rw [hevaluate, evaluate_eq_finish, finish_preview]
  generalize scope.plan r.resource r.category r.field (r.field.bind fun _ => r.change) s = planned
    at hplan ⊢
  obtain ⟨f | plan, s'⟩ := planned
  · exact hplan
  · dsimp only
    rw [plan.book_take]
    exact hplan

theorem grown_decideAll (rs : List Request) (s : Session) :
    scope.dictionary.Grown s.book (service.decideAll scope rs s).2.book := by
  induction rs generalizing s with
  | nil => exact .refl _ _
  | cons r rs ih => exact (service.grown_decide scope r s).trans (ih _)

/-- **A call reads nothing that is not declared.** -/
theorem grown_perform (call : Call) (s : Session) :
    service.dictionary.Grown s.book (service.perform call s).2.book := by
  cases call with
  | authorize user r =>
    rw [perform, authorize]
    cases r.validate 0 with
    | error e => exact .refl _ _
    | ok => exact service.grown_decide (service.openScope user s).1 r (service.openScope user s).2
  | authorizeBatch user rs =>
    rw [perform, authorizeBatch]
    cases Request.validateBatch rs with
    | error e => exact .refl _ _
    | ok =>
      exact service.grown_decideAll (service.openScope user s).1 rs (service.openScope user s).2

theorem grown_performAll (calls : List Call) (s : Session) :
    service.dictionary.Grown s.book (service.performAll calls s).2.book := by
  induction calls generalizing s with
  | nil => exact .refl _ _
  | cons call calls ih => exact (service.grown_perform call s).trans (ih _)

end Service

namespace RuleBook

/-- Reading texts is one way to use a book. -/
theorem readAll_eq_useAll (b : RuleBook) (texts : List String) :
    b.readAll texts = (b.useAll (texts.map .read)).2 := by
  induction texts generalizing b with
  | nil => rfl
  | cons text texts ih => exact ih _

/-- A book that only reads keeps no other texts. -/
theorem kept_reads (texts : List String) : kept (texts.map .read) ⊆ texts.toFinset := by
  intro text htext
  induction texts using List.reverseRecOn with
  | nil => simp [kept, sinceCleared] at htext
  | append_singleton texts last ih =>
    rw [List.map_append, List.map_singleton, kept_concat] at htext
    rcases htext.2 with hearlier | ⟨hlast, -⟩
    · simp [List.mem_toFinset.mp (ih hearlier)]
    · cases hlast
      simp

/-! ## 6. Any history -/

/-- **A book is invisible, and no larger than the policy.**  In any history of uses, against
whatever dictionaries, every use comes to what it comes to with a new book: a text is parsed, and
bound if all its names are, or else its leftmost unknown name is reported.  The book holds the texts
that are rules among those read since it was emptied.  And after any calls to a service it holds no
more rules than the dictionary of the service has texts. -/
theorem book_invisible (log : List Use) :
    (empty.useAll log).1 = log.map Use.anew ∧
    (∀ u, (empty.use u).1 = u.anew) ∧
    (empty.useAll log).2.size = (kept log).card ∧
    (∀ (d : Dictionary) text, ((∃ bound, d.compile text = .ok bound) ↔
        ∃ r, Rule.parse text = .ok r ∧ ∀ name ∈ r.leaves, (d.check? name).isSome) ∧
      ∀ e, d.compile text = .error e ↔
        Rule.parse text = .error e ∨ ∃ r before name after, Rule.parse text = .ok r ∧
          r.leaves = before ++ name :: after ∧ (∀ n ∈ before, (d.check? n).isSome) ∧
          d.check? name = none ∧ e = ⟨.unknownCheck name, none⟩) ∧
    ∀ (service : Service) (calls : List Call),
      (service.performAll calls .initial).2.book.size ≤ service.dictionary.texts.toFinset.card := by
  have hkept : ∀ log, Kept log (empty.useAll log).2 := fun log => kept_empty.useAll log
  refine ⟨empty.useAll_fst log, empty.use_fst, (hkept log).size_eq, fun d text =>
    ⟨Dictionary.compile_eq_ok_iff, fun e => Dictionary.compile_eq_error_iff⟩,
    fun service calls => ?_⟩
  obtain ⟨texts, htexts, hbook⟩ := service.grown_performAll calls .initial
  have hreads : (service.performAll calls .initial).2.book =
      (empty.useAll (texts.map .read)).2 := hbook.trans (empty.readAll_eq_useAll texts)
  rw [hreads, (hkept _).size_eq]
  refine Finset.card_le_card ((kept_reads texts).trans fun text htext => ?_)
  exact List.mem_toFinset.mpr (htexts text (List.mem_toFinset.mp htext))

end RuleBook

end AccessRules
