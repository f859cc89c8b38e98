import RuleTables.Document.Generation
import RuleTables.Proofs.RuleBlocks

namespace RuleTables

namespace Expr

/-- Whether the expression has one row at most: it is no composite, or one with nodes and no `or`
between them. -/
def isUncut : Expr → Bool
  | composite ns => !ns.isEmpty && ns.tail.all (·.connective ≠ some .or)
  | _ => true

section Groups

variable {e : Expr} {es : List Expr} {columns outputs : List String}

theorem rowGroups_of_isUncut (h : e.isUncut) : ∃ g, e.rowGroups = [g] ∧
    g.flatMap leaves = e.leaves ∧ g.all holdable = e.holdable := by
  cases e with
  | composite ns =>
    simp only [isUncut, Bool.and_eq_true, Bool.not_eq_true', List.isEmpty_eq_false_iff,
      List.all_eq_true, decide_eq_true_eq] at h
    refine ⟨ns.map (·.child), ?_, ?_, ?_⟩
    · rw [rowGroups, nodeGroups_eq_runs, Node.runs_eq_singleton h.1 h.2, List.map_singleton]
    · rw [leaves, nodeLeaves_eq_flatMap, List.flatMap_map]
    · rw [holdable, nodesHoldable_eq_all, List.all_map]
      rfl
  | condition _ | group _ | constant _ _ | foreign _ => exact ⟨_, rfl, by simp, by simp⟩

theorem row_congr {g h : List Expr} (hl : g.flatMap leaves = h.flatMap leaves) :
    row columns outputs g = row columns outputs h := by
  rw [row, row, hl]

theorem rows_of_isUncut (h : e.isUncut) : e.compiledGroups.map (row columns outputs) =
    ([[e]].filter (·.all holdable)).map (row columns outputs) := by
  obtain ⟨g, hg, hl, hh⟩ := rowGroups_of_isUncut h
  have hr : row columns outputs g = row columns outputs [e] :=
    row_congr (by rw [hl, List.flatMap_singleton])
  rw [compiledGroups, hg]
  cases hb : e.holdable <;> simp [hh, hb, hr]

theorem nodeGroups_or (c : Option Connective) (e : Expr) (es : List Expr) :
    nodeGroups (⟨c, e⟩ :: es.map (⟨some .or, ·⟩)) = (e :: es).map ([·]) := by
  induction es generalizing c e with
  | nil => rfl
  | cons d es ih =>
    rw [List.map_cons, nodeGroups, if_pos rfl, ih]
    rfl

theorem rowGroups_joinedBy_or (es : List Expr) :
    (composite (joinedBy .or es)).rowGroups = es.map ([·]) := by
  cases es with
  | nil => rfl
  | cons e es => exact nodeGroups_or none e es

theorem rows_joinedBy_or (h : ∀ e ∈ es, e.isUncut) :
    (composite (joinedBy .or es)).compiledGroups.map (row columns outputs) =
      es.flatMap fun e => e.compiledGroups.map (row columns outputs) := by
  rw [compiledGroups, rowGroups_joinedBy_or]
  induction es with
  | nil => rfl
  | cons e es ih =>
    rw [List.flatMap_cons, rows_of_isUncut (h e List.mem_cons_self),
      ← ih fun d hd => h d (List.mem_cons_of_mem e hd), ← List.map_append, ← List.filter_append]
    rfl

/-- An expression that is cut has two rows of its own, but as an alternative it is one group. -/
example :
    let e := composite [⟨none, condition (.equals "class" "vip")⟩,
      ⟨some .or, condition (.equals "rush" "true")⟩]
    e.compiledGroups.length = 2 ∧ (composite (joinedBy .or [e])).compiledGroups.length = 1 := by
  decide

theorem map_child_joinedBy (c : Connective) (es : List Expr) :
    (joinedBy c es).map (·.child) = es := by
  -- an expression that is cut has rows of its own, but as an alternative it is one group
  cases es with
  | nil => rfl
  | cons e es => simp [joinedBy, Function.comp_def]

theorem leaves_joinedBy (c : Connective) (es : List Expr) :
    (composite (joinedBy c es)).leaves = es.flatMap leaves := by
  rw [leaves, nodeLeaves_eq_flatMap, ← List.flatMap_map, map_child_joinedBy]

theorem isComplete_joinedBy (c : Connective) (h : ∀ e ∈ es, e.isComplete) :
    (composite (joinedBy c es)).isComplete := by
  refine isComplete_composite.mpr fun n hn => h _ ?_
  rw [← map_child_joinedBy c es]
  exact List.mem_map_of_mem hn

theorem anyOf_eq_ok (h : es ≠ []) : anyOf es = .ok (composite (joinedBy .or es)) := by
  obtain ⟨e, es, rfl⟩ := List.exists_cons_of_ne_nil h
  refine composite?_eq_ok (layoutFault?_eq_none_iff.mpr ⟨_, _, rfl, rfl, fun m hm => ?_⟩)
  obtain ⟨d, -, rfl⟩ := List.mem_map.mp hm
  rfl

end Groups

end Expr

namespace Table

variable {es : List Expr} {l : TableLayout}

theorem ofExpr_eq_ok {e : Expr} (h : e.isComplete) : ofExpr e l = .ok ⟨columnsOf [e] l,
    e.compiledGroups.map (Expr.row (columnsOf [e] l) (l.columns.map (·.cell)))⟩ := by
  have hc : compileColumns [e] l = .ok (columnsOf [e] l) := by
    rw [compileColumns, List.findSome?_singleton, Expr.foreign?_eq_none h]
    rfl
  rw [ofExpr, bind_eq_ok_iff]
  exact ⟨_, hc, bind_eq_ok_iff.mpr ⟨_, Expr.compileRows_eq h _ _, rfl⟩⟩

def rulesFor (l : TableLayout) (es : List Expr) : List Rule :=
  es.map fun e => ⟨e, l.columns.map (·.cell)⟩

theorem ofExpr_joinedBy_or (hc : ∀ e ∈ es, e.isComplete) (hu : ∀ e ∈ es, e.isUncut) :
    ∃ t, ofExpr (.composite (Expr.joinedBy .or es)) l = .ok t ∧
      ofRules (rulesFor l es) l = .ok t := by
  have hcols : columnsOf [.composite (Expr.joinedBy .or es)] l =
      columnsOf ((rulesFor l es).map (·.condition)) l := by
    have hm : (rulesFor l es).map (·.condition) = es := by simp [rulesFor, Function.comp_def]
    rw [columnsOf_eq, columnsOf_eq, Expr.namesIn, Expr.namesIn, List.flatMap_singleton,
      Expr.leaves_joinedBy, hm]
  refine ⟨_, ofExpr_eq_ok (Expr.isComplete_joinedBy .or hc), ?_⟩
  -- an alternative is one group of the whole, and its rule has that group as its only one
  refine ofRules_eq_ok_iff.mpr ⟨fun r hr => ?_, hcols, ?_⟩
  · obtain ⟨e, he, rfl⟩ := List.mem_map.mp hr
    exact Expr.isCompilable_of_isComplete (hc e he)
  · rw [← hcols, Expr.rows_joinedBy_or hu, rulesFor, List.flatMap_map]
    rfl

end Table

namespace Generation

theorem answer_ofCompiled (source : Source) (subject : String) (l : TableLayout) (t : Table) :
    (ofCompiled source subject l (.ok t)).answer = Document.compiledText t l := by
  rw [ofCompiled]
  cases Document.compiledText t l <;> rfl

theorem compiledText_cases (t : Table) (l : TableLayout) :
    (∃ text, Document.compiledText t l = .ok text) ∨
      ∃ f, Document.compiledText t l = .error f ∧ f.kind = .generation := by
  rw [Document.compiledText]
  cases (Document.ofTable t l).isWritable with
  | true => exact .inl ⟨_, rfl⟩
  | false => exact .inr ⟨_, rfl, rfl⟩

/-- Alternatives joined by `or` have the document that they have as rules with the default outputs,
or neither of the two can be written. -/
theorem anyOf_answer_eq_rules {es : List Expr} (l : TableLayout) (hn : es ≠ [])
    (hc : ∀ e ∈ es, e.isComplete) (hu : ∀ e ∈ es, e.isUncut) :
    ∃ e, Expr.anyOf es = .ok e ∧
      ((∃ text, (ofExpr e l).answer = .ok text ∧
          (ofRules (Table.rulesFor l es) l).answer = .ok text) ∨
        ∃ f, (ofExpr e l).answer = .error f ∧
          (ofRules (Table.rulesFor l es) l).answer = .error f ∧ f.kind = .generation) := by
  obtain ⟨t, he, hr⟩ := Table.ofExpr_joinedBy_or (l := l) hc hu
  refine ⟨_, Expr.anyOf_eq_ok hn, ?_⟩
  rw [ofExpr, ofRules, he, hr, answer_ofCompiled, answer_ofCompiled]
  obtain ⟨text, ht⟩ | ⟨f, hf, hk⟩ := compiledText_cases t l
  · exact .inl ⟨text, ht, ht⟩
  · exact .inr ⟨f, hf, hf, hk⟩

def largeOrGrouped : List Expr :=
  [.condition (.greaterThan "amount" "500"),
    .group (.composite [⟨none, .condition (.equals "class" "vip")⟩,
      ⟨some .or, .condition (.equals "rush" "true")⟩])]

theorem largeOrGrouped_answer_eq_rules : largeOrGrouped ≠ [] ∧
    (∀ e ∈ largeOrGrouped, e.isComplete) ∧ (∀ e ∈ largeOrGrouped, e.isUncut) ∧
    ∃ e text, Expr.anyOf largeOrGrouped = .ok e ∧ (ofExpr e .default).answer = .ok text ∧
      (ofRules (Table.rulesFor .default largeOrGrouped) .default).answer = .ok text := by
  have hn : largeOrGrouped ≠ [] := List.cons_ne_nil _ _
  have hc : ∀ e ∈ largeOrGrouped, e.isComplete := by decide
  have hu : ∀ e ∈ largeOrGrouped, e.isUncut := by decide
  obtain ⟨e, he, ⟨text, ho, hr⟩ | ⟨f, hf, -⟩⟩ := anyOf_answer_eq_rules .default hn hc hu
  · exact ⟨hn, hc, hu, e, text, he, ho, hr⟩
  · cases he
    have ha : (ofExpr (.composite (Expr.joinedBy .or largeOrGrouped)) .default).answer.isOk := by
      decide +kernel
    rw [hf] at ha
    cases ha

end Generation

end RuleTables
