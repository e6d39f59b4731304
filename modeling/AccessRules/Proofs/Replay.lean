/-
# The text of a tree justifies its outcome

A diagnostic is the text of a tree.  Whoever gets one can check it without the tree: read the
formula after the bracket, take each leaf for what the last word of its label says, which is
nothing where the check did not run, and replay the connectives on what is known.

* `Trace.formula?` reads the formula back from the text, whatever the condition before it says and
  whatever brackets stand in the names of checks (`Whole.formula?_text`);
* `Whole.evaluate`: each node has no status yet, or one that says what the labels below it come to,
  and every evaluation keeps it so, also one that an error stops;
* `Whole.replay_evaluate`: so the status that an evaluation returns is what the text then shows.

A decision without an error, if it shows its diagnostic, therefore shows a text that comes to a yes
or a no as the decision is one (`decide_justified`).
-/
import AccessRules.Proofs.Canonical
import AccessRules.Proofs.Decision
import AccessRules.Proofs.Labels

namespace AccessRules

/-! ## 1. Reading a text back -/

/-- The strong three-valued value of a formula, given what is known of each leaf. -/
def Formula.truth {α : Type} (v : α → Option Bool) : Formula α → Option Bool
  | leaf a => v a
  | and l r => Status.both (l.truth v) (r.truth v)
  | or l r => Status.either (l.truth v) (r.truth v)
  | not c => (c.truth v).map (!·)

namespace Trace

open Rule

/-- What has been read of the tokens of a text, from the right. -/
structure Reading where
  /-- The tokens of the formula. -/
  kept : List Token
  /-- How many parentheses are open. -/
  depth : Nat
  /-- Whether the bracket before the formula was reached. -/
  complete : Bool

/-- One more token to the left.  Words outside of parentheses are no part of the formula, save for
the one that stands for a field without any rule; the formula ends at a word with a bracket. -/
def step (t : Token) (k : Reading) : Reading :=
  if k.complete then k
  else
    match t with
    | .closing => ⟨t :: k.kept, k.depth + 1, false⟩
    | .opening => ⟨t :: k.kept, k.depth - 1, false⟩
    | .word w =>
      if k.depth = 0 then
        if w = "[SUCCESS]" then ⟨[.word "SUCCESS"], 0, true⟩
        else ⟨k.kept, 0, w.toList.head? = some '['⟩
      else ⟨t :: k.kept, k.depth, false⟩
    | _ => ⟨t :: k.kept, k.depth, false⟩

/-- The formula that a text shows. -/
def formula? (text : String) : Option Rule :=
  read? ((scan text.toList).foldr step ⟨[], 0, false⟩).kept

/-- What the text of a leaf says, by its last word: nothing of a check that did not run. -/
def said (text : String) : Option Bool :=
  match (Text.words text.toList).getLast?.map String.ofList with
  | some "PASSED" | some "SUCCESS" => some true
  | some "FAILED" | some "FAILURE" => some false
  | _ => none

/-- What the labels of a text come to, if it shows a formula. -/
def replay (text : String) : Option (Option Bool) := (formula? text).map (·.truth said)

/-- To the left of the bracket nothing is read. -/
theorem foldr_step_complete (ts : List Token) (kept : List Token) (depth : Nat) :
    ts.foldr step ⟨kept, depth, true⟩ = ⟨kept, depth, true⟩ := by
  induction ts with
  | nil => rfl
  | cons t ts ih =>
    rw [List.foldr_cons, ih]
    rfl

/-- Inside of parentheses every phrase is kept. -/
theorem foldr_step_derives {level : Rule.Level} {ts : List Token} {r : Rule}
    (h : Derives level ts r) : ∀ kept depth,
      ts.foldr step ⟨kept, depth + 1, false⟩ = ⟨ts ++ kept, depth + 1, false⟩ := by
  induction h with
  | @name words hne =>
    intro kept depth
    clear hne
    induction words with
    | nil => rfl
    | cons w words ih =>
      rw [List.map_cons, List.foldr_cons, ih]
      rfl
  | not _ ih =>
    intro kept depth
    rw [List.foldr_cons, ih]
    rfl
  | group _ ih =>
    intro kept depth
    rw [List.foldr_cons, List.foldr_append, List.foldr_cons, List.foldr_nil]
    change step _ (List.foldr step ⟨_, depth + 1 + 1, false⟩ _) = _
    rw [ih, List.cons_append, List.append_assoc]
    rfl
  | operand _ ih | conjunction _ ih => exact ih
  | and _ _ ihl ihr | or _ _ ihl ihr =>
    intro kept depth
    rw [List.foldr_append, List.foldr_cons, ihr]
    change List.foldr step ⟨_, depth + 1, false⟩ _ = _
    rw [ihl, List.append_assoc]
    rfl

/-- A group is kept as a whole. -/
theorem foldr_step_group {level : Rule.Level} {ts us kept : List Token} {r : Rule} {k : Reading}
    (h : Derives level ts r) (hus : us.foldr step k = ⟨kept, 0, false⟩) :
    (.opening :: (ts ++ .closing :: us)).foldr step k =
      ⟨.opening :: (ts ++ .closing :: kept), 0, false⟩ := by
  rw [List.foldr_cons, List.foldr_append, List.foldr_cons, hus]
  change step _ (List.foldr step ⟨_, 0 + 1, false⟩ _) = _
  rw [foldr_step_derives h]
  rfl

end Trace

/-! ## 2. What a tree shows -/

namespace Status

open Rule

/-- The words of a label. -/
def words : Status → List String
  | unevaluated => ["WAS", "UNEVALUATED"]
  | passed => ["PASSED"]
  | failed => ["FAILED"]
  | deferred => ["DEFERRED"]

theorem label_eq (st : Status) : st.label = " ".intercalate st.words := by
  cases st <;> rfl

theorem words_ne_nil (st : Status) : st.words ≠ [] := by
  cases st <;> exact List.cons_ne_nil _ _

theorem isWord_of_mem_words (st : Status) : ∀ w ∈ st.words, IsWord w := by
  have hscan : st.words.map .word = scan st.label.toList := by cases st <;> rfl
  exact fun w hw => (splits_iff.mpr hscan).isWord (List.mem_map_of_mem hw)

end Status

namespace Rule

variable {name : String}

/-- The words of a name with a label are those of the name and those of the label. -/
theorem Canonical.exists_labelled (h : Canonical name) (st : Status) : ∃ words,
    (∀ w ∈ words ++ st.words, IsWord w) ∧
      name ++ " " ++ st.label = " ".intercalate (words ++ st.words) := by
  obtain ⟨words, hne, hwords, rfl⟩ := h
  refine ⟨words, List.forall_mem_append.mpr ⟨hwords, st.isWord_of_mem_words⟩, ?_⟩
  rw [String.intercalate_append_of_ne_nil hne st.words_ne_nil, ← st.label_eq]

theorem Canonical.labelled (h : Canonical name) (st : Status) :
    Canonical (name ++ " " ++ st.label) := by
  obtain ⟨words, hwords, heq⟩ := h.exists_labelled st
  exact ⟨_, List.append_ne_nil_of_right_ne_nil _ st.words_ne_nil, hwords, heq⟩

/-- A label says what is known of its leaf. -/
theorem Canonical.said_labelled (h : Canonical name) (st : Status) :
    Trace.said (name ++ " " ++ st.label) = st.truth := by
  obtain ⟨words, hwords, heq⟩ := h.exists_labelled st
  have hlast : ((words ++ st.words).map String.toList).getLast?.map String.ofList =
      st.words.getLast? := by
    rw [List.getLast?_map, Option.map_map, List.getLast?_append_of_ne_nil _ st.words_ne_nil]
    simp [Function.comp_def]
  rw [Trace.said, heq, words_intercalate hwords, hlast]
  cases st <;> rfl

end Rule

namespace Tree

/-- The formula that a tree shows, over the texts of its leaves: a check with the label of its
status, whatever stands above it. -/
def trace : Tree → Rule
  | check leaf s => .leaf (leaf.name ++ " " ++ s.label)
  | constant passed label _ => .leaf (constantText passed label)
  | deferred name _ => .leaf (name ++ " " ++ Status.deferred.label)
  | and l r _ => .and l.trace r.trace
  | or l r _ => .or l.trace r.trace
  | not c _ => .not c.trace
  | anyField _ f e _ => .or f.trace e.trace
  | fieldRule _ r _ => r.trace
  | entityRule _ r _ => r.trace
  | unrestricted _ _ => .leaf "SUCCESS"

/-- What the labels of a tree come to. -/
def shown (t : Tree) : Option Bool := t.trace.truth Trace.said

end Tree

/-- A status that is none yet, or says what is shown. -/
def Status.Backed (st : Status) (shown : Option Bool) : Prop :=
  st = .unevaluated ∨ st.truth = shown

namespace Tree

/-- A tree below the root of a decision.  The names of its leaves are names of rules, and whatever
a node says is shown by the labels below it. -/
inductive Part : Tree → Prop where
  | check {leaf : Leaf} {st : Status} (hname : Rule.Canonical leaf.name) : Part (.check leaf st)
  | constant {passed : Bool} {st : Status} (h : st.Backed (some passed)) :
      Part (.constant passed none st)
  | deferred {name : String} {st : Status} (hname : Rule.Canonical name) (h : st.Backed none) :
      Part (.deferred name st)
  | and {l r : Tree} {st : Status} (hl : Part l) (hr : Part r)
      (h : st.Backed (Status.both l.shown r.shown)) : Part (.and l r st)
  | or {l r : Tree} {st : Status} (hl : Part l) (hr : Part r)
      (h : st.Backed (Status.either l.shown r.shown)) : Part (.or l r st)
  | not {c : Tree} {st : Status} (hc : Part c) (h : st.Backed (c.shown.map (!·))) : Part (.not c st)

/-- The tree of a decision. -/
inductive Whole : Tree → Prop where
  | anyField {condition : Condition} {f e : Tree} {st : Status} (hf : Part f) (he : Part e)
      (h : st.Backed (Status.either f.shown e.shown)) : Whole (.anyField condition f e st)
  | fieldRule {condition : Condition} {r : Tree} {st : Status} (hr : Part r)
      (h : st.Backed r.shown) : Whole (.fieldRule condition r st)
  | entityRule {condition : Condition} {r : Tree} {st : Status} (hr : Part r)
      (h : st.Backed r.shown) : Whole (.entityRule condition r st)
  | unrestricted {condition : Condition} {st : Status} (h : st.Backed (some true)) :
      Whole (.unrestricted condition st)

theorem Part.backed {t : Tree} (h : Part t) : t.status.Backed t.shown := by
  cases h with
  | @check leaf st hname =>
    rw [shown, trace, Formula.truth, hname.said_labelled]
    exact .inr rfl
  | @constant passed st h =>
    cases passed <;> exact h
  | @deferred name st hname h =>
    rw [shown, trace, Formula.truth, hname.said_labelled]
    exact h
  | and _ _ h | or _ _ h | not _ h => exact h

theorem Whole.backed {t : Tree} (h : Whole t) : t.status.Backed t.shown := by
  cases h with
  | anyField _ _ h | fieldRule _ h | entityRule _ h | unrestricted h => exact h

/-! ## 3. Every evaluation keeps it so -/

section Evaluate

variable {t : Tree} {s : Session}

/-- What an evaluation returns is shown by the tree that it leaves. -/
theorem truth_eq_shown (h : (t.evaluate s).tree.status.Backed (t.evaluate s).tree.shown)
    {a : Status} (ha : (t.evaluate s).result = .ok a) : a.truth = (t.evaluate s).tree.shown := by
  obtain ⟨rfl, hne⟩ := evaluateWith_settles t s a ha
  exact h.resolve_left hne

variable {P : Tree → Prop} {l r c : Tree}

theorem single_backed {node : Tree → Status → Tree} {f : Status → Status}
    {g : Option Bool → Option Bool} (hf : ∀ a, (f a).truth = g a.truth)
    (hc : (c.evaluate s).tree.Part)
    (hnode : ∀ st, st.Backed (g (c.evaluate s).tree.shown) → P (node (c.evaluate s).tree st)) :
    P (Evaluation.single node f (c.evaluate s)).tree := by
  cases hres : (c.evaluate s).result with
  | error failure =>
    rw [Evaluation.single_of_error node f hres]
    exact hnode _ (.inl rfl)
  | ok a =>
    rw [Evaluation.single_of_ok node f hres]
    exact hnode _ (.inr (by rw [hf, truth_eq_shown hc.backed hres]))

/-- The right child need not be evaluated: what the left one shows is then enough. -/
theorem pair_backed {node : Tree → Tree → Status → Tree} {stop : Status}
    {join : Status → Status → Status} {g : Option Bool → Option Bool → Option Bool}
    (hjoin : ∀ a b, (join a b).truth = g a.truth b.truth) (hstop : ∀ b, g stop.truth b = stop.truth)
    (hl : (l.evaluate s).tree.Part) (hr : r.Part) (hevaluated : ∀ s, (r.evaluate s).tree.Part)
    (hnode : ∀ r' st, r'.Part → st.Backed (g (l.evaluate s).tree.shown r'.shown) →
      P (node (l.evaluate s).tree r' st)) :
    P (Evaluation.pair node stop join (l.evaluate s) r r.evaluate).tree := by
  cases hres : (l.evaluate s).result with
  | error failure =>
    rw [Evaluation.pair_of_error node stop join r _ hres]
    exact hnode r _ hr (.inl rfl)
  | ok a =>
    have ha := truth_eq_shown hl.backed hres
    rcases eq_or_ne a stop with rfl | hne
    · rw [Evaluation.pair_of_stop node a join r _ hres]
      refine hnode r a hr (.inr ?_)
      rw [← ha, hstop]
    · rw [Evaluation.pair_of_ok node stop join r _ hres hne]
      refine single_backed (fun b => (hjoin a b).trans (by rw [ha])) (hevaluated _) ?_
      exact fun st hst => hnode _ st (hevaluated _) hst

end Evaluate

/-- **An evaluation keeps what the labels of a part show**, also one that an error stops. -/
theorem Part.evaluate {t : Tree} (h : Part t) : ∀ s, Part (t.evaluate s).tree := by
  have settled : ∀ t : Tree, Part t → t.status ≠ .unevaluated → ∀ s, Part (t.evaluate s).tree := by
    intro t ht hst s
    rw [evaluate_of_settled hst]
    exact ht
  induction h with
  | @check leaf st hname =>
    intro s
    rcases eq_or_ne st .unevaluated with rfl | hst
    · change Part (Evaluation.asked leaf (s.ask leaf)).tree
      cases ha : (s.ask leaf).1 with
      | error detail =>
        rw [Evaluation.asked_of_error leaf ha]
        exact .check hname
      | ok b =>
        rw [Evaluation.asked_of_ok leaf ha]
        exact .check hname
    · exact settled _ (.check hname) hst s
  | @constant passed st h =>
    intro s
    rcases eq_or_ne st .unevaluated with rfl | hst
    · exact .constant (.inr (Status.truth_ofBool passed))
    · exact settled _ (.constant h) hst s
  | @deferred name st hname h =>
    intro s
    rcases eq_or_ne st .unevaluated with rfl | hst
    · exact .deferred hname (.inr rfl)
    · exact settled _ (.deferred hname h) hst s
  | @and l r st hl hr h ihl ihr =>
    intro s
    rcases eq_or_ne st .unevaluated with rfl | hst
    · exact pair_backed Status.truth_and (fun _ => rfl) (ihl s) hr ihr fun _ _ => .and (ihl s)
    · exact settled _ (.and hl hr h) hst s
  | @or l r st hl hr h ihl ihr =>
    intro s
    rcases eq_or_ne st .unevaluated with rfl | hst
    · exact pair_backed Status.truth_or (fun _ => rfl) (ihl s) hr ihr fun _ _ => .or (ihl s)
    · exact settled _ (.or hl hr h) hst s
  | @not c st hc h ih =>
    intro s
    rcases eq_or_ne st .unevaluated with rfl | hst
    · exact single_backed Status.truth_negate (ih s) fun _ => .not (ih s)
    · exact settled _ (.not hc h) hst s

/-- **An evaluation keeps what the labels of a decision show.** -/
theorem Whole.evaluate {t : Tree} (h : Whole t) (s : Session) : Whole (t.evaluate s).tree := by
  by_cases ht : t.status = .unevaluated
  · cases h with
    | @anyField condition f e st hf he h =>
      obtain rfl : st = .unevaluated := ht
      exact pair_backed Status.truth_or (fun _ => rfl) (hf.evaluate s) he he.evaluate
        fun _ _ => .anyField (hf.evaluate s)
    | @fieldRule condition r st hr h =>
      obtain rfl : st = .unevaluated := ht
      exact single_backed (g := id) (fun _ => rfl) (hr.evaluate s)
        fun _ => .fieldRule (hr.evaluate s)
    | @entityRule condition r st hr h =>
      obtain rfl : st = .unevaluated := ht
      exact single_backed (g := id) (fun _ => rfl) (hr.evaluate s)
        fun _ => .entityRule (hr.evaluate s)
    | @unrestricted condition st h =>
      obtain rfl : st = .unevaluated := ht
      exact .unrestricted (.inr rfl)
  · rw [evaluate_of_settled ht]
    exact h

/-- Any number of evaluations keeps what the labels of a decision show. -/
theorem Whole.after {t : Tree} (h : Whole t) (ss : List Session) : Whole (t.after ss) := by
  induction ss generalizing t with
  | nil => exact h
  | cons s ss ih => exact ih (h.evaluate s)

/-! ## 4. The text reads back -/

open Rule

/-- A word alone is a name. -/
theorem derives_word (w : String) : Derives .rule [.word w] (.leaf w) := by
  have h := @Derives.name [w] (List.cons_ne_nil _ _)
  rw [nameOfWords, String.intercalate_singleton] at h
  exact h.to_rule

/-- **The text of a part has the tokens of the formula that it shows.** -/
theorem Part.splits {t : Tree} (h : Part t) :
    ∃ ts, Splits t.text.toList ts ∧ Derives .rule ts t.trace := by
  -- a leaf stands in parentheses of its own
  have leaf : ∀ {name : String}, Canonical name →
      ∃ ts, Splits ("(" ++ name ++ ")").toList ts ∧ Derives .rule ts (.leaf name) := by
    intro name hname
    obtain ⟨ts, hts, hd⟩ := splits_text (r := .leaf name) (List.forall_mem_singleton.mpr hname)
    rw [Rule.text] at hts
    exact ⟨_, by simpa [String.toList_append] using splits_group hts .nil,
      (Derives.group hd.to_rule).to_rule⟩
  induction h with
  | @check l st hname =>
    obtain ⟨ts, hts, hd⟩ := leaf (hname.labelled st)
    exact ⟨ts, by simpa [text, String.append_assoc] using hts, hd⟩
  | @constant passed st h =>
    have hsuccess : Splits "SUCCESS".toList [.word "SUCCESS"] := splits_iff.mpr rfl
    have hfailure : Splits "FAILURE".toList [.word "FAILURE"] := splits_iff.mpr rfl
    cases passed with
    | true => exact ⟨_, hsuccess, derives_word _⟩
    | false => exact ⟨_, hfailure, derives_word _⟩
  | @deferred name st hname h =>
    obtain ⟨ts, hts, hd⟩ := leaf (hname.labelled .deferred)
    exact ⟨ts, by simpa [text, Status.label, String.append_assoc] using hts, hd⟩
  | and hl hr h ihl ihr =>
    obtain ⟨ts, hts, hdl⟩ := ihl
    obtain ⟨us, hus, hdr⟩ := ihr
    refine ⟨_, ?_, Derives.to_rule (.and (.operand (.group hdl)) (.group hdr))⟩
    simpa [text, String.toList_append, Operator.spelling] using
      splits_group hts (splits_operator .and (splits_group hus .nil))
  | or hl hr h ihl ihr =>
    obtain ⟨ts, hts, hdl⟩ := ihl
    obtain ⟨us, hus, hdr⟩ := ihr
    refine ⟨_, ?_, .or (.conjunction (.operand (.group hdl))) (.operand (.group hdr))⟩
    simpa [text, String.toList_append, Operator.spelling] using
      splits_group hts (splits_operator .or (splits_group hus .nil))
  | not hc h ih =>
    obtain ⟨ts, hts, hd⟩ := ih
    refine ⟨.operator .not :: _, ?_, Derives.to_rule (.not (.group hd))⟩
    simpa [text, String.toList_append, Operator.spelling] using
      Splits.operator .not (ends_cons rfl) (.blank rfl (splits_group hts .nil))

end Tree

namespace Trace

open Rule

/-- A word with a bracket, before the first group of a formula. -/
structure Heads (head : String) : Prop where
  isWord : IsWord head
  complete : ∀ kept, step (.word head) ⟨kept, 0, false⟩ = ⟨kept, 0, true⟩

theorem isWord_of_scan {w : String} (h : [.word w] = scan w.toList) : IsWord w :=
  (splits_iff.mpr h).isWord (List.mem_singleton_self _)

theorem heads_fields : Heads "[FIELDS" := ⟨isWord_of_scan rfl, fun _ => rfl⟩

theorem heads_field : Heads "[FIELD" := ⟨isWord_of_scan rfl, fun _ => rfl⟩

theorem heads_entity : Heads "[ENTITY" := ⟨isWord_of_scan rfl, fun _ => rfl⟩

variable {head text : String} {body : List Char} {us kept : List Token} {k : Reading}
  {r : Rule}

/-- The condition before the formula may say what it will: nothing before the word with the bracket
is read. -/
theorem formula?_of_splits (condition : String) (hhead : IsWord head) (hend : Ends body)
    (hbody : Splits body us)
    (htext : text.toList =
      condition.toList ++ (" FOR EXPRESSION".toList ++ ' ' :: (head.toList ++ body)))
    (hus : us.foldr step ⟨[], 0, false⟩ = k) (hcomplete : step (.word head) k = ⟨kept, 0, true⟩)
    (hr : Derives .rule kept r) : formula? text = some r := by
  have hword : Splits (head.toList ++ body) (.word head :: us) := .word hhead hend hbody
  have hphrase : Splits (" FOR EXPRESSION".toList ++ ' ' :: (head.toList ++ body)) _ :=
    (splits_scan _).append (.blank rfl hword) (ends_cons rfl)
  have hall := (splits_scan condition.toList).append hphrase (ends_cons rfl)
  rw [← htext, ← List.append_assoc] at hall
  rw [formula?, ← hall.eq_scan, List.foldr_append, List.foldr_cons, hus, hcomplete,
    foldr_step_complete]
  exact hr.read?

/-- The formula that stands in one group. -/
theorem formula?_group (condition : String) (hhead : Heads head) {t : Tree} (ht : t.Part) :
    formula? (condition ++ " FOR EXPRESSION " ++ head ++ "(" ++ t.text ++ ")]") =
      some t.trace := by
  obtain ⟨ts, hts, hd⟩ := ht.splits
  have hbody : Splits ('(' :: (t.text.toList ++ ')' :: "]".toList)) _ :=
    splits_group hts (splits_scan _)
  refine formula?_of_splits condition hhead.isWord (ends_cons rfl) hbody ?_
    (foldr_step_group hd rfl) (hhead.complete _) (Derives.group hd).to_rule
  simp [String.toList_append]

end Trace

open Rule Trace in
/-- **The formula that a decision shows is read from its text.** -/
theorem Tree.Whole.formula?_text {t : Tree} (h : Whole t) :
    Trace.formula? t.text = some t.trace := by
  cases h with
  | @anyField condition f e st hf he h =>
    obtain ⟨ts, hts, hdf⟩ := hf.splits
    obtain ⟨us, hus, hde⟩ := he.splits
    -- from the right: the group of the type, its heading, `OR`, the group of the fields
    have hentity : Splits ('(' :: (e.text.toList ++ ')' :: "]".toList)) _ :=
      splits_group hus (splits_scan _)
    have hheading : Splits ("ENTITY".toList ++ _) _ :=
      .word (isWord_of_scan rfl) (ends_cons rfl) hentity
    have hbody := splits_group hts (splits_operator .or hheading)
    have hright : (.operator .or :: .word "ENTITY" :: .opening ::
        (us ++ .closing :: scan "]".toList)).foldr step ⟨[], 0, false⟩ =
          ⟨.operator .or :: .opening :: (us ++ [.closing]), 0, false⟩ := by
      rw [List.foldr_cons, List.foldr_cons, foldr_step_group hde rfl]
      rfl
    refine formula?_of_splits condition.text heads_fields.isWord (ends_cons rfl) hbody ?_
      (foldr_step_group hdf hright) (heads_fields.complete _) ?_
    · simp [text, String.toList_append, Operator.spelling]
    · simpa [trace] using Derives.or (.conjunction (.operand (.group hdf))) (.operand (.group hde))
  | fieldRule hr h =>
    simpa [text, trace, String.append_assoc] using formula?_group _ heads_field hr
  | entityRule hr h =>
    simpa [text, trace, String.append_assoc] using formula?_group _ heads_entity hr
  | @unrestricted condition st h =>
    have hhead : IsWord "[SUCCESS]" := isWord_of_scan rfl
    refine formula?_of_splits condition.text hhead ends_nil .nil ?_ rfl rfl
      (derives_word "SUCCESS")
    simp [text, String.toList_append]

/-- **What an evaluation returns is what the text of the tree then comes to.** -/
theorem Tree.Whole.replay_evaluate {t : Tree} (h : Whole t) {s : Session} {a : Status}
    (ha : (t.evaluate s).result = .ok a) :
    Trace.replay (t.evaluate s).tree.text = some a.truth := by
  rw [Trace.replay, (h.evaluate s).formula?_text, Option.map_some,
    truth_eq_shown (h.evaluate s).backed ha, shown]

example : Trace.replay "[FIELD(x) FOR EXPRESSION [ENTITY(NOT ((is [ann FAILED)))]" =
    some (some true) := by rfl

/-! ## 5. The trees of a plan -/

/-- The names of a usable rule are names as rules have them. -/
theorem Dictionary.canonical_of_mem_rule {d : Dictionary} {typeName : String} {category : Category}
    {place : Option String} {rule : BoundRule} (h : d.rule? typeName category place = some rule)
    {c : NamedCheck} (hc : c ∈ rule.formula.leaves) : Rule.Canonical c.name := by
  obtain ⟨text, -, hcompile⟩ := compile_of_rule? h
  obtain ⟨r, hparse, hr⟩ := compile_eq_ok hcompile
  obtain ⟨name, hmem, hname⟩ := hr.exists_leaf hc
  obtain ⟨rfl, -⟩ := check?_of_bindName hname
  exact Rule.canonical_of_parse hparse _ hmem

theorem Formula.part_tree {α : Type} {leaf : α → Tree} {φ : Formula α}
    (h : ∀ a ∈ φ.leaves, (leaf a).Part) : (φ.tree leaf).Part := by
  induction φ with
  | leaf a => exact h a (List.mem_singleton_self a)
  | and l r ihl ihr =>
    obtain ⟨hl, hr⟩ := List.forall_mem_append.mp h
    exact .and (ihl hl) (ihr hr) (.inl rfl)
  | or l r ihl ihr =>
    obtain ⟨hl, hr⟩ := List.forall_mem_append.mp h
    exact .or (ihl hl) (ihr hr) (.inl rfl)
  | not c ih => exact .not (ih h) (.inl rfl)

theorem Tree.part_anyOf {ts : List Tree} (h : ∀ t ∈ ts, t.Part) : (anyOf ts).Part := by
  have fold : ∀ {ts : List Tree}, (∀ t ∈ ts, t.Part) → ∀ {t : Tree}, t.Part →
      (ts.foldl (fun l r => .or l r .unevaluated) t).Part := by
    intro ts hts
    induction ts with
    | nil => exact fun ht => ht
    | cons r ts ih =>
      obtain ⟨hr, hrest⟩ := List.forall_mem_cons.mp hts
      exact fun ht => ih hrest (.or ht hr (.inl rfl))
  cases ts with
  | nil => exact .constant (.inl rfl)
  | cons t ts =>
    obtain ⟨ht, hts⟩ := List.forall_mem_cons.mp h
    exact fold hts ht

/-- The tree of a usable rule. -/
theorem BoundRule.part_tree {d : Dictionary} {typeName : String} {category : Category}
    {place : Option String} {rule : BoundRule} (h : d.rule? typeName category place = some rule)
    (p : Phase) (situation : Situation) : (rule.tree p situation).Part := by
  refine Formula.part_tree fun c hc => ?_
  have hname := Dictionary.canonical_of_mem_rule h hc
  exact @Phase.leaf_related (fun t _ => t.Part) p situation situation c (.check hname)
    (.deferred hname (.inl rfl))

/-- The tree of a decision, as it is planned. -/
theorem RequestScope.whole_tree {scope : RequestScope} {resource : Resource} {category : Category}
    {field : Option String} {change : Option Change} {p : Phase} :
    (scope.tree resource category field change p).Whole := by
  cases field with
  | none =>
    refine .anyField (Tree.part_anyOf fun t ht => ?_) ?_ (.inl rfl)
    · obtain ⟨rule, hrule, rfl⟩ := List.mem_map.mp ht
      obtain ⟨name, -, hname⟩ := List.mem_filterMap.mp hrule
      exact BoundRule.part_tree hname p _
    · cases hentity : scope.dictionary.rule? resource.typeName category none with
      | none => exact .constant (.inl rfl)
      | some rule => exact BoundRule.part_tree hentity p _
  | some field =>
    rw [tree, fieldTree]
    cases hfield : scope.dictionary.rule? resource.typeName category (some field) with
    | some rule => exact .fieldRule (BoundRule.part_tree hfield p _) (.inl rfl)
    | none =>
      cases hentity : scope.dictionary.rule? resource.typeName category none with
      | some rule => exact .entityRule (BoundRule.part_tree hentity p _) (.inl rfl)
      | none => exact .unrestricted (.inl rfl)

/-- The checks of a tree stand in the formula that it shows, each with its label. -/
theorem Tree.marks_sublist_trace (t : Tree) :
    (t.marks.map fun m => m.1.name ++ " " ++ m.2.label).Sublist t.trace.leaves := by
  induction t with
  | check leaf st => exact .refl _
  | constant | deferred | unrestricted => exact List.nil_sublist _
  | and l r st ihl ihr | or l r st ihl ihr | anyField condition l r st ihl ihr =>
    rw [marks, List.map_append]
    exact ihl.append ihr
  | not c st ih | fieldRule condition c st ih | entityRule condition c st ih => exact ih

/-- What the texts of a tree owe, however often it is evaluated and from whatever sessions. -/
structure Tree.Justified (t : Tree) : Prop where
  /-- The text is that of the formula, with the raw label of every check. -/
  legible : ∀ ss, Trace.formula? (t.after ss).text = some (t.after ss).trace ∧
    ((t.after ss).marks.map fun m => m.1.name ++ " " ++ m.2.label).Sublist (t.after ss).trace.leaves
  /-- A check is labelled by what it answered when it was reached, and is else unevaluated. -/
  labelled : ∀ ss i l, t.leaves[i]? = some l → ∃ st, (t.after ss).marks[i]? = some (l, st) ∧
    (∀ b, st = .ofBool b ↔ t.AnsweredAt i b ss) ∧
    (st = .unevaluated ↔ ∀ b, ¬ t.AnsweredAt i b ss)
  /-- The answers are those in the account of the session. -/
  accounted : ∀ ss s, Visited (t.after ss) s ((t.after ss).evaluate s) ((t.after ss).visits s)
  /-- A status that is returned is that of the root, and the text comes to it. -/
  replayed : ∀ ss s a, ((t.after ss).evaluate s).result = .ok a →
    ((t.after ss).evaluate s).tree.status = a ∧ a ≠ .unevaluated ∧
      Trace.replay ((t.after ss).evaluate s).tree.text = some a.truth

/-- **The texts of a planned tree justify its outcomes.** -/
theorem RequestScope.justified_tree {scope : RequestScope} {resource : Resource}
    {category : Category} {field : Option String} {change : Option Change} {p : Phase} :
    (scope.tree resource category field change p).Justified where
  legible ss := ⟨(whole_tree.after ss).formula?_text, Tree.marks_sublist_trace _⟩
  labelled ss _ _ hl := fresh_tree.label hl ss
  accounted _ s := Tree.visited_evaluate _ s
  replayed ss s a ha := by
    obtain ⟨hstatus, hne⟩ := Tree.evaluateWith_settles _ s a ha
    exact ⟨hstatus, hne, (whole_tree.after ss).replay_evaluate ha⟩

/-! ## 6. Decisions -/

/-- What a decision owes that shows its diagnostic. -/
def Decision.Justified (d : Decision) : Prop :=
  d.error = none → ∃ text, d.diagnostic = some text ∧ Trace.replay text = some (some d.allowed)

/-- A decision that stands for a failure has an error. -/
theorem Decision.justified_closed (f : Failure) : (Decision.closed f).Justified := by
  intro herror
  cases herror

namespace Service

variable {service : Service} {scope : RequestScope} {r : Request}

/-- A decision shows the text of the tree that was evaluated last. -/
theorem decide_justified (hshows : service.showsDiagnostics = true) {index : Nat}
    (h : r.validate index = .ok ()) (s : Session) :
    (service.decide scope r s).1.Justified := by
  have shown : ∀ {allowed : Bool} {text : String}, Trace.replay text = some (some allowed) →
      Decision.Justified ⟨allowed, service.shown (some text), none⟩ :=
    fun htext _ => ⟨_, if_pos hshows, htext⟩
  cases ho : r.obstacle? scope with
  | some f =>
    rw [service.decide_of_obstacle h ho]
    exact Decision.justified_closed f
  | none =>
    rw [(service.decide_ended h ho).1]
    cases hres : (r.previewed scope s).result with
    | error f =>
      rw [judge, hres]
      exact Decision.justified_closed _
    | ok st =>
      rcases eq_or_ne st .failed with rfl | hst
      · rw [judge, hres]
        exact shown (RequestScope.whole_tree.replay_evaluate hres)
      · rw [service.judge_of_committed hres hst]
        cases hres' : (r.committed scope s).result with
        | error f => exact Decision.justified_closed _
        | ok st' =>
          have htext := RequestScope.whole_tree.replay_evaluate hres'
          rcases Tree.evaluateWith_definite RequestScope.fresh_tree _ st' hres' with rfl | rfl
          · exact shown htext
          · exact shown htext

/-- **Diagnostics justify outcomes.**  The texts of every tree that is planned, in either phase and
after any evaluations, come to what the evaluations return; and if a call shows diagnostics, each of
its decisions without an error shows one that comes to a yes or a no as the decision is one. -/
theorem diagnostics_justify :
    (∀ (scope : RequestScope) (resource : Resource) (category : Category) (field : Option String)
      (change : Option Change) (s : Session) (plan : Plan),
      (scope.plan resource category field change s).1 = .ok plan →
        plan.preview.Justified ∧ plan.commit.Justified) ∧
    ∀ (service : Service) (user : User) (s : Session), service.showsDiagnostics = true →
      (∀ r d, (service.authorize user r s).1 = .ok d → d.Justified) ∧
      ∀ rs ds, (service.authorizeBatch user rs s).1 = .ok ds →
        List.Forall₂ (fun _ d => d.Justified) rs ds := by
  refine ⟨fun scope resource category field change s plan hplan => ?_,
    fun service user s hshows => ⟨fun r d hd => ?_, fun rs ds hds => ?_⟩⟩
  · rw [RequestScope.plan_eq_ok hplan]
    exact ⟨RequestScope.justified_tree, RequestScope.justified_tree⟩
  · cases hvalid : r.validate 0 with
    | error e =>
      rw [authorize, hvalid] at hd
      cases hd
    | ok _ =>
      obtain ⟨s', hcall⟩ := service.authorize_of_validate user hvalid s
      rw [hcall] at hd
      cases hd
      exact decide_justified hshows hvalid _
  · cases hvalid : Request.validateBatch rs with
    | error e =>
      rw [authorizeBatch, hvalid] at hds
      cases hds
    | ok _ =>
      obtain ⟨s', hcall⟩ := service.authorizeBatch_of_validate user hvalid s
      rw [hcall] at hds
      cases hds
      refine service.decideAll_forall (I := fun _ => True) (fun r hr t _ => ⟨?_, trivial⟩) trivial
      obtain ⟨index, hindex⟩ := Request.validate_of_validateBatch hvalid r hr
      exact decide_justified hshows hindex t

/-- Both phases of the specimen, and the calls for its request. -/
theorem diagnostics_justify_retitling :
    let service := Service.ofDictionary Specimen.dictionary
    let plan := Specimen.request.plan (Specimen.scope false)
    (((Specimen.scope false).plan Specimen.book .update (some "title") (some Specimen.retitling)
      Specimen.opened).1 = .ok plan ∧ plan.preview.Justified ∧ plan.commit.Justified) ∧
    service.showsDiagnostics = true ∧
    (∃ d, (service.authorize .anonymous Specimen.request .initial).1 = .ok d ∧ d.error = none ∧
      d.allowed = true ∧ ∃ text, d.diagnostic = some text ∧
        Trace.replay text = some (some true)) ∧
    ∃ ds, (service.authorizeBatch .anonymous [Specimen.request] .initial).1 = .ok ds ∧
      List.Forall₂ (fun _ d => d.Justified) [Specimen.request] ds := by
  intro service plan
  have hplan : ((Specimen.scope false).plan Specimen.book .update (some "title")
      (some Specimen.retitling) Specimen.opened).1 = .ok plan :=
    RequestScope.plan_of_unobstructed _ _ _ _ _ _ (by rfl)
  obtain ⟨hsingle, hbatch⟩ := diagnostics_justify.2 service .anonymous .initial rfl
  obtain ⟨d, hd, herror, hallowed⟩ : ∃ d,
      (service.authorize .anonymous Specimen.request .initial).1 = .ok d ∧ d.error = none ∧
        d.allowed = true := ⟨_, rfl, rfl, rfl⟩
  obtain ⟨ds, hds⟩ : ∃ ds,
      (service.authorizeBatch .anonymous [Specimen.request] .initial).1 = .ok ds := ⟨_, rfl⟩
  have hjustified := hsingle Specimen.request d hd herror
  rw [hallowed] at hjustified
  exact ⟨⟨hplan, diagnostics_justify.1 _ _ _ _ _ _ _ hplan⟩, rfl,
    ⟨d, hd, herror, hallowed, hjustified⟩, ds, hds, hbatch [Specimen.request] ds hds⟩

end Service

end AccessRules
