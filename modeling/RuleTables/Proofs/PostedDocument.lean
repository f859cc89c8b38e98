import RuleTables.Proofs.Posting

namespace RuleTables

namespace Request

variable {α β : Type}

/-- Two readers that accept the same values and take the same from them. -/
def Agree (read read' : Json → Checked α) : Prop :=
  ∀ v, (read v).value? = (read' v).value?

section Agreement

variable {read read' : Json → Checked α}

theorem Agree.field (h : Agree read read') (names : List String) (usual : Option α)
    (ms : Json.Members) :
    (field names read usual ms).value? = (Request.field names read' usual ms).value? := by
  rw [value?_field, value?_field]
  cases findFirst names ms with
  | some m => exact h m.2
  | none => rfl

theorem Agree.itemsFrom (h : Agree read read') (index : Nat) (vs : List Json) :
    (itemsFrom read index vs).value? = (Request.itemsFrom read' index vs).value? := by
  induction vs generalizing index with
  | nil => rfl
  | cons v vs ih =>
    rw [Request.itemsFrom, Request.itemsFrom, Checked.value?_seq, Checked.value?_seq,
      Checked.value?_map, Checked.value?_map, Checked.value?_within, Checked.value?_within, h v,
      ih (index + 1)]

theorem Agree.list (h : Agree read read') : Agree (list read) (Request.list read') := by
  intro v
  cases v with
  | list vs => exact h.itemsFrom 0 vs
  | _ => rfl

theorem Agree.nonEmptyList (h : Agree read read') :
    Agree (nonEmptyList read) (Request.nonEmptyList read') := by
  intro v
  cases v with
  | list vs =>
    cases vs with
    | nil => rfl
    | cons v vs => exact h.list (.list (v :: vs))
  | _ => rfl

theorem agree_record (model : String) {read read' : Json.Members → Checked α}
    (h : ∀ ms, (read ms).value? = (read' ms).value?) :
    Agree (record true model read) (record false model read') := by
  intro v
  cases v with
  | object ms => exact h ms
  | _ => rfl

theorem OutputBody.agree : Agree (OutputBody.read true) (OutputBody.read false) :=
  agree_record _ fun _ => rfl

theorem agree_readComputedInput : Agree (readComputedInput true) (readComputedInput false) :=
  agree_record _ fun _ => rfl

theorem LayoutBody.agree : Agree (LayoutBody.read true) (LayoutBody.read false) :=
  agree_record _ fun ms => by
    simp only [Checked.value?_seq, Checked.value?_map, OutputBody.agree.list.field,
      agree_readComputedInput.list.field]

theorem ExpressionTableBody.agree :
    Agree (ExpressionTableBody.read true) (ExpressionTableBody.read false) :=
  agree_record _ fun ms => by
    simp only [Checked.value?_seq, Checked.value?_map, LayoutBody.agree.field]

theorem RuleBody.agree : Agree (RuleBody.read true) (RuleBody.read false) :=
  agree_record _ fun _ => rfl

theorem RulesTableBody.agree : Agree (RulesTableBody.read true) (RulesTableBody.read false) :=
  agree_record _ fun ms => by
    simp only [Checked.value?_seq, Checked.value?_map, LayoutBody.agree.field,
      RuleBody.agree.nonEmptyList.field]

theorem agree_readDrawnInput : Agree (readDrawnInput true) (readDrawnInput false) :=
  agree_record _ fun _ => rfl

theorem agree_readDrawnOutput : Agree (readDrawnOutput true) (readDrawnOutput false) :=
  agree_record _ fun _ => rfl

theorem agree_readDrawnRule : Agree (readDrawnRule true) (readDrawnRule false) :=
  agree_record _ fun _ => rfl

theorem agree_readDrawnTable : Agree (readDrawnTable true) (readDrawnTable false) :=
  agree_record _ fun ms => by
    simp only [Checked.value?_seq, Checked.value?_map, agree_readDrawnInput.list.field,
      agree_readDrawnOutput.list.field, agree_readDrawnRule.list.field]

end Agreement

section Rules

def ruleCount : Json → Nat
  | .object ms =>
    match Assoc.find? "rules" ms with
    | some (.list vs) => vs.length
    | _ => 0
  | _ => 0

theorem length_of_itemsFrom {read : Json → Checked α} {index : Nat} {vs : List Json} {as : List α}
    (h : (itemsFrom read index vs).value? = some as) : as.length = vs.length := by
  induction vs generalizing index as with
  | nil =>
    obtain rfl : [] = as := Option.some.inj h
    rfl
  | cons v vs ih =>
    rw [itemsFrom, Checked.value?_seq, Checked.value?_map] at h
    obtain ⟨f, hf, ht⟩ := Option.bind_eq_some_iff.mp h
    obtain ⟨a, -, rfl⟩ := Option.map_eq_some_iff.mp hf
    obtain ⟨bs, hb, rfl⟩ := Option.map_eq_some_iff.mp ht
    rw [List.length_cons, List.length_cons, ih hb]

theorem length_of_nonEmptyList {read : Json → Checked α} {v : Json} {as : List α}
    (h : (nonEmptyList read v).value? = some as) : ∃ vs, v = .list vs ∧ as.length = vs.length := by
  cases v with
  | list vs =>
    cases vs with
    | nil => cases h
    | cons w vs => exact ⟨w :: vs, rfl, length_of_itemsFrom h⟩
  | _ => cases h

theorem length_rules {v : Json} {b : RulesTableBody}
    (h : (RulesTableBody.read false v).value? = some b) : b.rules.length = ruleCount v := by
  cases v with
  | object ms =>
    have hr : (field ["rules"] (nonEmptyList (RuleBody.read false)) none ms).value? =
        some b.rules := by
      rw [RulesTableBody.read, record, Checked.value?_seq, Checked.value?_seq,
        Checked.value?_map] at h
      obtain ⟨f, hf, hv⟩ := Option.bind_eq_some_iff.mp h
      obtain ⟨g, hg, hl⟩ := Option.bind_eq_some_iff.mp hf
      obtain ⟨rs, hr, rfl⟩ := Option.map_eq_some_iff.mp hg
      obtain ⟨l, -, rfl⟩ := Option.map_eq_some_iff.mp hl
      obtain ⟨c, -, rfl⟩ := Option.map_eq_some_iff.mp hv
      exact hr
    have hf : findFirst ["rules"] ms = (Assoc.find? "rules" ms).map ("rules", ·) := by
      rw [findFirst, List.findSome?_singleton]
    rw [value?_field, hf] at hr
    cases hs : Assoc.find? "rules" ms with
    | none => rw [hs] at hr; cases hr
    | some w =>
      rw [hs] at hr
      obtain ⟨vs, rfl, hl⟩ := length_of_nonEmptyList hr
      rw [ruleCount, hs, hl]
  | _ => cases h

end Rules

section Documents

variable {s : Settings} {v : Json} {x : String}

theorem answer_readBody {model : String} {read : Json → Checked α} {go : α → Outcome} :
    (readBody model read go v).answer = .ok x ↔
      ∃ a, (read v).value? = some a ∧ (go a).answer = .ok x := by
  rw [readBody]
  cases read v with
  | good a => exact ⟨fun h => ⟨a, rfl, h⟩, fun ⟨b, hb, h⟩ => Option.some.inj hb ▸ h⟩
  | bad is => exact iff_of_false nofun nofun

theorem answer_rulesDocument (b : RulesTableBody) :
    (rulesDocument s true b).answer = .ok x ↔ (rulesDocument s false b).answer = .ok x := by
  -- whether the fault of a rule tells its number does not matter to the document
  rw [rulesDocument, rulesDocument]
  cases rulesOf b.rules with
  | error f => exact Iff.rfl
  | ok rs =>
    dsimp only
    split
    · exact iff_of_false nofun nofun
    · exact Iff.rfl

end Documents

end Request

theorem FaultClass.status_ne_ok (k : FaultClass) : k.status ≠ 200 := by
  cases k <;> simp [status]

namespace Service

open Request

variable {s : Settings} {m : Meters} {fresh : String} {c : Call} {t : Target} {v : Json}
  {x : String}

theorem status_reply_tell_ne {w : Json} {a : Answer} (h : a.status ≠ 200) :
    (reply (tell w a)).1 ≠ 200 := by
  rw [status_reply_tell]
  split
  · exact h
  · decide

theorem status_reply_issues (is : List Issue) : (reply (Trouble.issues is).answer).1 ≠ 200 :=
  status_reply_tell_ne (show 422 ≠ 200 by decide)

theorem status_reply_fault (f : Fault) : (reply (Trouble.fault f).answer).1 ≠ 200 := by
  rw [Trouble.answer, settle]
  split
  · exact status_reply_tell_ne (FaultClass.status_ne_ok _)
  · exact show 500 ≠ 200 by decide

theorem reply_ofOutcome {o : Outcome} :
    reply (Work.ofOutcome o).answer = (200, x) ↔ o.answer = .ok x := by
  rw [Work.answer, Work.ofOutcome]
  cases o.answer with
  | ok y => simp [Except.mapError, Except.map, reply, Answer.document]
  | error r =>
    constructor
    · intro h
      cases r with
      | issues model is => exact absurd (congrArg Prod.fst h) (status_reply_issues is)
      | fault f => exact absurd (congrArg Prod.fst h) (status_reply_fault f)
    · intro h
      cases h

theorem reply_withBody {α : Type} {read : Json → Checked α} {go : α → Work} (hp : c.Posts t v)
    (hn : (read .null).value? = none) : reply (Work.withBody read c go).answer = (200, x) ↔
      ∃ a, (read v).value? = some a ∧ reply (go a).answer = (200, x) := by
  rw [Work.withBody_eq hp, ← Posted.value?_check hn]
  cases (Posted.ofValue v).check read with
  | good a => exact ⟨fun h => ⟨a, rfl, h⟩, fun ⟨b, hb, h⟩ => Option.some.inj hb ▸ h⟩
  | bad is =>
    exact iff_of_false (fun h => status_reply_issues is (congrArg Prod.fst h)) nofun

theorem reply_rulesTable (b : RulesTableBody) :
    reply (Work.rulesTable s b).answer = (200, x) ↔
      b.rules.length ≤ s.maxRules ∧ (rulesDocument s false b).answer = .ok x := by
  rw [Work.rulesTable]
  split
  · next h =>
    exact iff_of_false (fun hr => status_reply_fault _ (congrArg Prod.fst hr))
      fun hl => absurd hl.1 (by omega)
  · next h =>
    rw [reply_ofOutcome, answer_rulesDocument]
    exact (and_iff_right (by omega)).symm

def Mode.target : Mode → Target
  | .expression => .expressionTable
  | .rules => .rulesTable
  | .table => .table

theorem reply_document (mode : Mode) (hp : c.Posts (Mode.target mode) v) (k : Meters) :
    reply (Work.ofTarget s k c (Mode.target mode)).answer = (200, x) ↔
      (document s mode v).answer = .ok x ∧ (mode = .rules → ruleCount v ≤ s.maxRules) := by
  cases mode with
  | table =>
    rw [Mode.target, Work.ofTarget, reply_withBody hp rfl, document, answer_readBody,
      agree_readDrawnTable v]
    simp [reply_ofOutcome]
  | expression =>
    rw [Mode.target, Work.ofTarget, reply_withBody hp rfl, document, answer_readBody,
      ExpressionTableBody.agree v]
    simp [reply_ofOutcome]
  | rules =>
    rw [Mode.target, Work.ofTarget, reply_withBody hp rfl, document, answer_readBody,
      RulesTableBody.agree v]
    simp only [reply_rulesTable, forall_const, exists_and_right.symm]
    refine exists_congr fun b => ?_
    constructor
    · exact fun ⟨hb, hl, ha⟩ => ⟨⟨hb, ha⟩, length_rules hb ▸ hl⟩
    · exact fun ⟨⟨hb, ha⟩, hl⟩ => ⟨hb, (length_rules hb).symm ▸ hl, ha⟩

/-- A body is answered with a document just if the same document is built from it without the
service, as long as its rules are not too many and the service can ask for identifiers. -/
theorem respond_document_iff (s : Settings) (m : Meters) (fresh : String) (mode : Mode)
    (hp : c.Posts (Mode.target mode) v) (x : String) :
    ((respond s m fresh c).answer.status = 200 ∧ (respond s m fresh c).answer.body = x) ↔
      (buildDocument s (some mode) v).answer = .ok x ∧
        (mode = .rules → ruleCount v ≤ s.maxRules) ∧ asksForNames s := by
  by_cases hs : asksForNames s
  · have ht : (Mode.target mode).methods = ["POST"] := by cases mode <;> rfl
    obtain ⟨k, hk⟩ := reply_respond hp ht s m fresh hs
    rw [← Prod.mk.injEq, hk, reply_document mode hp k, buildDocument]
    simp [hs]
  · rw [status_respond_of_not s m fresh c hs]
    exact iff_of_false (fun h => absurd h.1 (by decide)) fun h => hs h.2.2

section TwoRules

def twoRules : Json :=
  let rule := Json.object [("expression", .object [("type", .text "constant"),
    ("value", .bool true)])]
  .object [("rules", .list [rule, rule])]

def atMost (n : Int) : Settings := { Settings.usual with maxRules := n }

theorem asksForNames_atMost (n : Int) : asksForNames (atMost n) :=
  asksForNames_usual

theorem posts_twoRules : (Call.posting .rulesTable twoRules).Posts .rulesTable twoRules :=
  Call.posts_posting_object .rulesTable (by decide)

theorem twoRules_answered : (Call.posting .rulesTable twoRules).Posts .rulesTable twoRules ∧
    ∃ x, (respond (atMost 2) .zero "" (.posting .rulesTable twoRules)).answer.status = 200 ∧
      (respond (atMost 2) .zero "" (.posting .rulesTable twoRules)).answer.body = x ∧
      (buildDocument (atMost 2) (some .rules) twoRules).answer = .ok x := by
  have ho : (buildDocument (atMost 2) (some .rules) twoRules).answer.isOk := by decide +kernel
  obtain ⟨x, hx⟩ := exists_of_isOk ho
  obtain ⟨hs, hb⟩ := (respond_document_iff (atMost 2) .zero "" .rules posts_twoRules x).mpr
    ⟨hx, fun _ => by decide, asksForNames_atMost 2⟩
  exact ⟨posts_twoRules, x, hs, hb, hx⟩

/-- One rule more than the settings allow: it has a document, but the service does not give it. -/
theorem twoRules_refused : (Call.posting .rulesTable twoRules).Posts .rulesTable twoRules ∧
    ∃ x, (buildDocument (atMost 1) (some .rules) twoRules).answer = .ok x ∧
      ¬((respond (atMost 1) .zero "" (.posting .rulesTable twoRules)).answer.status = 200 ∧
        (respond (atMost 1) .zero "" (.posting .rulesTable twoRules)).answer.body = x) := by
  have ho : (buildDocument (atMost 1) (some .rules) twoRules).answer.isOk := by decide +kernel
  obtain ⟨x, hx⟩ := exists_of_isOk ho
  refine ⟨posts_twoRules, x, hx, fun h => ?_⟩
  obtain ⟨k, hk⟩ := reply_respond posts_twoRules rfl (atMost 1) .zero "" (asksForNames_atMost 1)
  rw [h.1, h.2] at hk
  obtain ⟨-, hc⟩ := (reply_document .rules posts_twoRules k).mp hk.symm
  exact absurd (hc rfl) (by decide)

end TwoRules

end Service

end RuleTables
