import RuleTables.Proofs.Echo
import RuleTables.Proofs.PostedDocument

namespace RuleTables

namespace Assoc

theorem find?_put {α : Type} (n k : String) (a : α) (ms : List (String × α)) :
    find? n (put k a ms) = if k = n then some a else find? n ms := by
  induction ms with
  | nil => rfl
  | cons m ms ih =>
    obtain ⟨j, b⟩ := m
    rw [put]
    by_cases hj : j = k
    · subst hj
      rw [if_pos rfl, find?, find?]
      split <;> rfl
    · rw [if_neg hj, find?, find?, ih]
      by_cases hn : j = n
      · rw [if_pos hn, if_pos hn, if_neg fun h => hj (hn.trans h.symm)]
      · rw [if_neg hn, if_neg hn]

end Assoc

/-- The same body, but for what it says about validation. -/
def Json.withFlag (flag : Bool) : Json → Json
  | .object ms => .object (Assoc.put "validate" (.bool flag) ms)
  | v => v

namespace Request

section Flag

variable {ms : Json.Members} {flag : Bool}

theorem findFirst_put_of_not_mem {names : List String} {k : String} (v : Json) (h : k ∉ names) :
    findFirst names (Assoc.put k v ms) = findFirst names ms := by
  induction names with
  | nil => rfl
  | cons n names ih =>
    obtain ⟨hn, hs⟩ := not_or.mp (mt List.mem_cons.mpr h)
    rw [findFirst, findFirst, List.findSome?_cons, List.findSome?_cons, Assoc.find?_put, if_neg hn]
    have := ih hs
    rw [findFirst, findFirst] at this
    rw [this]

theorem value?_field_put_of_not_mem {α : Type} {names : List String} {k : String} (v : Json)
    (h : k ∉ names) (read : Json → Checked α) (usual : Option α) :
    (field names read usual (Assoc.put k v ms)).value? = (field names read usual ms).value? := by
  rw [value?_field, value?_field, findFirst_put_of_not_mem v h]

theorem value?_flag_put : (field ["validate", "validate_expression"] truth (some true)
    (Assoc.put "validate" (.bool flag) ms)).value? = some flag := by
  rw [value?_field, findFirst, List.findSome?_cons, Assoc.find?_put, if_pos rfl]
  rfl

theorem value?_body_iff {α β γ δ : Type} {f : α → β → γ → δ} {a : Checked α} {b : Checked β}
    {c : Checked γ} {d : δ} : (f <$> a <*> b <*> c).value? = some d ↔
      ∃ x y z, a.value? = some x ∧ b.value? = some y ∧ c.value? = some z ∧ f x y z = d := by
  rw [Checked.value?_seq, Checked.value?_seq, Checked.value?_map]
  cases a.value? <;> cases b.value? <;> cases c.value? <;> simp

theorem ExpressionTableBody.read_withFlag {v : Json} {b : ExpressionTableBody}
    (h : (ExpressionTableBody.read true v).value? = some b) :
    (ExpressionTableBody.read true (v.withFlag flag)).value? =
      some { b with validate := flag } := by
  cases v with
  | object ms =>
    obtain ⟨tree, layout, old, ht, hl, -, rfl⟩ := value?_body_iff.mp h
    refine value?_body_iff.mpr ⟨tree, layout, flag, ?_, ?_, value?_flag_put, rfl⟩
    · rw [value?_field_put_of_not_mem _ (by decide), ht]
    · rw [value?_field_put_of_not_mem _ (by decide), hl]
  | _ => cases h

theorem RulesTableBody.read_withFlag {v : Json} {b : RulesTableBody}
    (h : (RulesTableBody.read true v).value? = some b) :
    (RulesTableBody.read true (v.withFlag flag)).value? =
      some { b with validate := flag } := by
  cases v with
  | object ms =>
    obtain ⟨rules, layout, old, hr, hl, -, rfl⟩ := value?_body_iff.mp h
    refine value?_body_iff.mpr ⟨rules, layout, flag, ?_, ?_, value?_flag_put, rfl⟩
    · rw [value?_field_put_of_not_mem _ (by decide), hr]
    · rw [value?_field_put_of_not_mem _ (by decide), hl]
  | _ => cases h

end Flag

/-- An expression is the first invalid one of a list. -/
structure IsFirstInvalid (es : List Expr) (i : Nat) (e : Expr) : Prop where
  here : es[i]? = some e
  invalid : ¬ e.validate.isValid
  earlier : ∀ j < i, ∀ d, es[j]? = some d → d.validate.isValid

section FirstInvalid

variable {e : Expr} {es : List Expr} {i : Nat}

theorem IsFirstInvalid.head {d : Expr} (h : ¬ d.validate.isValid) :
    IsFirstInvalid (d :: es) 0 d where
  here := rfl
  invalid := h
  earlier _ hj := absurd hj (Nat.not_lt_zero _)

theorem IsFirstInvalid.cons {d : Expr} (hd : d.validate.isValid) (h : IsFirstInvalid es i e) :
    IsFirstInvalid (d :: es) (i + 1) e where
  here := h.here
  invalid := h.invalid
  earlier j hj c hc := by
    cases j with
    | zero => exact Option.some.inj hc ▸ hd
    | succ j => exact h.earlier j (Nat.lt_of_succ_lt_succ hj) c hc

theorem IsFirstInvalid.tail {d : Expr} (h : IsFirstInvalid (d :: es) (i + 1) e) :
    d.validate.isValid ∧ IsFirstInvalid es i e where
  left := h.earlier 0 (Nat.succ_pos i) d rfl
  right :=
    { here := h.here
      invalid := h.invalid
      earlier := fun j hj => h.earlier (j + 1) (Nat.succ_lt_succ hj) }

theorem IsFirstInvalid.unique {j : Nat} {d : Expr} (h : IsFirstInvalid es i e)
    (hd : IsFirstInvalid es j d) : i = j ∧ e = d := by
  obtain hl | rfl | hl := Nat.lt_trichotomy i j
  · exact absurd (hd.earlier i hl e h.here) h.invalid
  · exact ⟨rfl, Option.some.inj (h.here.symm.trans hd.here)⟩
  · exact absurd (h.earlier j hl d hd.here) hd.invalid

theorem exists_isFirstInvalid (h : ∃ e ∈ es, ¬ e.validate.isValid) :
    ∃ i e, IsFirstInvalid es i e := by
  induction es with
  | nil => exact absurd h (by simp)
  | cons d es ih =>
    by_cases hd : d.validate.isValid
    · obtain ⟨e, he, hi⟩ := h
      rcases List.mem_cons.mp he with rfl | he
      · exact absurd hd hi
      · obtain ⟨i, e, hf⟩ := ih ⟨e, he, hi⟩
        exact ⟨i + 1, e, hf.cons hd⟩
    · exact ⟨0, d, .head hd⟩

theorem failing?_of_isFirstInvalid {rs : List Rule} (start : Nat)
    (h : IsFirstInvalid (rs.map (·.condition)) i e) :
    failing? start rs = some (start + i, e.validate) := by
  induction rs generalizing start i with
  | nil => cases h.here
  | cons r rs ih =>
    rw [failing?]
    cases i with
    | zero =>
      obtain rfl : r.condition = e := Option.some.inj h.here
      rw [if_neg h.invalid, Nat.add_zero]
    | succ i =>
      obtain ⟨hr, hs⟩ := h.tail
      rw [if_pos hr, ih (start + 1) hs, Nat.add_assoc, Nat.add_comm 1]

theorem failing?_of_forall_isValid {rs : List Rule} (start : Nat)
    (h : ∀ r ∈ rs, r.condition.validate.isValid) : failing? start rs = none := by
  induction rs generalizing start with
  | nil => rfl
  | cons r rs ih =>
    obtain ⟨hr, hs⟩ := List.forall_mem_cons.mp h
    rw [failing?, if_pos hr, ih (start + 1) hs]

end FirstInvalid

end Request

namespace Service

open Request

/-- A body that asks for a table of expressions, as it was read. -/
inductive Order where
  | expression (b : ExpressionTableBody)
  | rules (b : RulesTableBody)

namespace Order

def read? (t : Target) (v : Json) : Option Order :=
  match t with
  | .expressionTable => (ExpressionTableBody.read true v).value?.map .expression
  | .rulesTable => (RulesTableBody.read true v).value?.map .rules
  | _ => none

def withFlag (flag : Bool) : Order → Order
  | expression b => expression { b with validate := flag }
  | rules b => rules { b with validate := flag }

def exprs : Order → Except Fault (List Expr)
  | expression b => (Expr.read false b.expression).map ([·])
  | rules b => (rulesOf b.rules).map (·.map (·.condition))

/-- Rules must not be more than the settings allow. -/
def IsAllowed (s : Settings) : Order → Prop
  | expression _ => True
  | rules b => b.rules.length ≤ s.maxRules

def work (s : Settings) : Order → Work
  | expression b => .ofOutcome (expressionDocument s b)
  | rules b => .rulesTable s b

/-- The answer to a body for what was found about the expression with the number. -/
def rejection (number : Nat) (f : Findings) : Order → Answer
  | expression _ => .problem 400 "ValidationError" "Expression validation failed"
    (.object [("errors", textsJson f.errors), ("warnings", textsJson f.warnings)])
  | rules _ => .problem 400 "ValidationError" ("Rule " ++ toString number ++ " failed validation")
    (.object [("rule", .int number), ("errors", textsJson f.errors),
      ("warnings", textsJson f.warnings)])

variable {s : Settings} {o : Order} {es : List Expr} {t : Target} {v : Json}

theorem read?_withFlag (flag : Bool) (h : read? t v = some o) :
    read? t (v.withFlag flag) = some (o.withFlag flag) := by
  unfold read? at h ⊢
  split at h
  · obtain ⟨b, hb, rfl⟩ := Option.map_eq_some_iff.mp h
    rw [ExpressionTableBody.read_withFlag hb]
    rfl
  · obtain ⟨b, hb, rfl⟩ := Option.map_eq_some_iff.mp h
    rw [RulesTableBody.read_withFlag hb]
    rfl
  · cases h

theorem isStrict_textsJson (ss : List String) : (textsJson ss).isStrict := by
  rw [textsJson, Json.isStrict_list_iff, List.forall_mem_map]
  exact fun s _ => rfl

def fault (number : Nat) (f : Findings) : Order → Fault
  | expression _ => .findings f.errors f.warnings
  | rules _ => .ruleFindings number f.errors f.warnings

theorem answer_fault (o : Order) (number : Nat) (f : Findings) :
    (Trouble.fault (o.fault number f)).answer = .ok (o.rejection number f) := by
  have he := isStrict_textsJson f.errors
  have hw := isStrict_textsJson f.warnings
  have hs : (o.fault number f).report.details.isStrict := by
    refine Json.isStrict_object_iff.mpr ?_
    cases o with
    | expression b => exact List.forall_mem_cons.mpr ⟨he, List.forall_mem_singleton.mpr hw⟩
    | rules b =>
      exact List.forall_mem_cons.mpr ⟨rfl, List.forall_mem_cons.mpr
        ⟨he, List.forall_mem_singleton.mpr hw⟩⟩
  have hd : (o.fault number f).report.kind.isDomain := by cases o <;> rfl
  rw [Trouble.answer, settle, if_pos hd, tell, if_pos hs]
  cases o <;> rfl

theorem answer_work_of_isFirstInvalid {i : Nat} {e : Expr} (ha : o.IsAllowed s)
    (hx : o.exprs = .ok es) (h : IsFirstInvalid es i e) :
    ((o.withFlag true).work s).answer = .ok (o.rejection i e.validate) := by
  rw [← answer_fault]
  cases o with
  | expression b =>
    obtain ⟨d, hd, rfl⟩ := map_eq_ok_iff.mp hx
    obtain rfl : d = e := List.mem_singleton.mp (List.mem_of_getElem? h.here) |>.symm
    -- A list of one expression has no other that could be told of.
    have hf : d.validate.fault? = some (.findings d.validate.errors d.validate.warnings) :=
      if_neg h.invalid
    rw [withFlag, work, expressionDocument, hd]
    simp only [hf]
    rfl
  | rules b =>
    obtain ⟨rs, hr, rfl⟩ := map_eq_ok_iff.mp hx
    have hf := failing?_of_isFirstInvalid 0 h
    rw [withFlag, work, Work.rulesTable, if_neg (Int.not_lt.mpr ha), rulesDocument, hr]
    simp only [hf, Nat.zero_add]
    rfl

theorem work_of_forall_isValid (hx : o.exprs = .ok es) (h : ∀ e ∈ es, e.validate.isValid) :
    (o.withFlag true).work s = (o.withFlag false).work s := by
  cases o with
  | expression b =>
    obtain ⟨d, hd, rfl⟩ := map_eq_ok_iff.mp hx
    have hf : d.validate.fault? = none := if_pos (List.forall_mem_singleton.mp h)
    simp only [withFlag, work, expressionDocument, hd, hf]
  | rules b =>
    obtain ⟨rs, hr, rfl⟩ := map_eq_ok_iff.mp hx
    have hf : failing? 0 rs = none := failing?_of_forall_isValid 0 (List.forall_mem_map.mp h)
    simp only [withFlag, work, Work.rulesTable, rulesDocument, hr, hf]

theorem ofTarget_of_read? {c : Call} (hp : c.Posts t v) (h : read? t v = some o) (k : Meters) :
    Work.ofTarget s k c t = o.work s := by
  unfold read? at h
  split at h
  · obtain ⟨b, hb, rfl⟩ := Option.map_eq_some_iff.mp h
    exact Work.withBody_of_value? hp rfl hb _
  · obtain ⟨b, hb, rfl⟩ := Option.map_eq_some_iff.mp h
    exact Work.withBody_of_value? hp rfl hb _
  · cases h

/-- The request posts a body from which this is read. -/
def Asks (c : Call) (t : Target) (o : Order) : Prop :=
  ∃ v, c.Posts t v ∧ read? t v = some o

/-- The target answers the request with this status and body, and so does the service, if it can ask
for the identifiers of requests at all. -/
structure IsAnswered (s : Settings) (t : Target) (c : Call) (r : Nat × String) : Prop where
  target : ∀ k, reply (Work.ofTarget s k c t).answer = r
  service : asksForNames s → ∀ m fresh,
    ((respond s m fresh c).answer.status, (respond s m fresh c).answer.body) = r

theorem methods_of_read? (h : read? t v = some o) : t.methods = ["POST"] := by
  cases t with
  | health | meters => cases h
  | _ => rfl

theorem Asks.isAnswered {c : Call} (h : Asks c t o) :
    IsAnswered s t c (reply (o.work s).answer) := by
  obtain ⟨v, hp, hr⟩ := h
  have ht (k : Meters) := congrArg (reply ·.answer) (ofTarget_of_read? (s := s) hp hr k)
  refine ⟨ht, fun hs m fresh => ?_⟩
  obtain ⟨k, hk⟩ := reply_respond hp (methods_of_read? hr) s m fresh hs
  exact hk.trans (ht k)

/-- The flag decides no more than whether a body with an invalid expression is kept out: with it the
first such expression is told of, and any other body is answered as it is without it. -/
theorem validate_gate (hv : read? t v = some o) (ha : o.IsAllowed s) (hx : o.exprs = .ok es) :
    (∀ flag, read? t (v.withFlag flag) = some (o.withFlag flag)) ∧
    ∀ c d, Asks c t (o.withFlag true) → Asks d t (o.withFlag false) →
      ((∃ e ∈ es, ¬ e.validate.isValid) → ∃ i e, IsFirstInvalid es i e ∧
        IsAnswered s t c (400, (o.rejection i e.validate).body)) ∧
      ((∀ e ∈ es, e.validate.isValid) → ∃ r, IsAnswered s t c r ∧ IsAnswered s t d r) := by
  refine ⟨fun flag => read?_withFlag flag hv, fun c d hc hd => ⟨fun he => ?_, fun he => ?_⟩⟩
  · obtain ⟨i, e, hi⟩ := exists_isFirstInvalid he
    have h := hc.isAnswered (s := s)
    rw [answer_work_of_isFirstInvalid ha hx hi, reply] at h
    have hn : (o.rejection i e.validate).status = 400 := by cases o <;> rfl
    exact ⟨i, e, hi, hn ▸ h⟩
  · refine ⟨_, hc.isAnswered, ?_⟩
    rw [work_of_forall_isValid hx he]
    exact hd.isAnswered

section Unnamed

def alwaysTree : Json := .object [("type", .text "constant"), ("value", .bool true)]

def unnamedTree : Json :=
  .object [("type", .text "condition"), ("parameter", .text " "), ("operator", .text "IS_NULL")]

def unnamed : Expr := .condition (.isNull " ")

theorem read_alwaysTree : Expr.read false alwaysTree = .ok .alwaysTrue := by
  rw [Expr.read, alwaysTree, Expr.ofTree]
  rfl

theorem read_unnamedTree : Expr.read false unnamedTree = .ok unnamed := by
  rw [Expr.read, unnamedTree, Expr.ofTree]
  rfl

def alwaysThen (tree : Json) : Json :=
  .object [("rules", .list [.object [("expression", alwaysTree)], .object [("expression", tree)]])]

def alwaysThenOrder (tree : Json) : Order :=
  rules ⟨[⟨alwaysTree, []⟩, ⟨tree, []⟩], .empty, true⟩

theorem exprs_alwaysThen {tree : Json} {e : Expr} (h : Expr.read false tree = .ok e) :
    (alwaysThenOrder tree).exprs = .ok [.alwaysTrue, e] := by
  rw [alwaysThenOrder, exprs]
  simp only [rulesOf, RuleBody.rule, read_alwaysTree, h]
  rfl

theorem isAllowed_alwaysThen (tree : Json) : (alwaysThenOrder tree).IsAllowed .usual :=
  show (2 : Int) ≤ Settings.usual.maxRules by decide

theorem asks_alwaysThen {tree : Json} (h : tree = alwaysTree ∨ tree = unnamedTree) (flag : Bool) :
    Asks (.posting .rulesTable ((alwaysThen tree).withFlag flag)) .rulesTable
      ((alwaysThenOrder tree).withFlag flag) := by
  have hr : read? .rulesTable (alwaysThen tree) = some (alwaysThenOrder tree) := by
    rcases h with rfl | rfl <;> rfl
  have hp : ((alwaysThen tree).withFlag flag).isPlain := by
    rcases h with rfl | rfl <;> cases flag <;> decide
  exact ⟨_, Call.posts_posting_object .rulesTable hp, read?_withFlag flag hr⟩

theorem validate_gate_alwaysThen :
    (read? .rulesTable (alwaysThen unnamedTree) = some (alwaysThenOrder unnamedTree) ∧
      IsAnswered .usual .rulesTable
        (.posting .rulesTable ((alwaysThen unnamedTree).withFlag true))
        (400, (Answer.problem 400 "ValidationError" "Rule 1 failed validation"
          (.object [("rule", .int 1), ("errors", .list [.text "Parameter name is required"]),
            ("warnings", .list [])])).body)) ∧
    (read? .rulesTable (alwaysThen alwaysTree) = some (alwaysThenOrder alwaysTree) ∧
      ∃ r, IsAnswered .usual .rulesTable
          (.posting .rulesTable ((alwaysThen alwaysTree).withFlag true)) r ∧
        IsAnswered .usual .rulesTable
          (.posting .rulesTable ((alwaysThen alwaysTree).withFlag false)) r) := by
  have hv : Expr.alwaysTrue.validate.isValid := by decide
  have hn : ¬ unnamed.validate.isValid := by decide
  constructor
  · have hr : read? .rulesTable (alwaysThen unnamedTree) = some (alwaysThenOrder unnamedTree) := rfl
    obtain ⟨-, gate⟩ :=
      validate_gate hr (isAllowed_alwaysThen _) (exprs_alwaysThen read_unnamedTree)
    obtain ⟨i, e, hi, answered⟩ :=
      (gate _ _ (asks_alwaysThen (.inr rfl) true) (asks_alwaysThen (.inr rfl) false)).1
        ⟨unnamed, by simp, hn⟩
    obtain ⟨rfl, rfl⟩ := hi.unique (.cons hv (.head hn))
    exact ⟨hr, answered⟩
  · have hr : read? .rulesTable (alwaysThen alwaysTree) = some (alwaysThenOrder alwaysTree) := rfl
    obtain ⟨-, gate⟩ :=
      validate_gate hr (isAllowed_alwaysThen _) (exprs_alwaysThen read_alwaysTree)
    exact ⟨hr, (gate _ _ (asks_alwaysThen (.inl rfl) true) (asks_alwaysThen (.inl rfl) false)).2
      (by simp [hv])⟩

end Unnamed

end Order

end Service

end RuleTables
