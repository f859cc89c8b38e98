import RuleTables.Document.Generation
import RuleTables.Proofs.Identifiers
import RuleTables.Proofs.Writable

namespace RuleTables

namespace Document

/-- A rule that shows a row: its cells in the order of the columns, and an output for each of `count`
output columns, as it is in the row and empty where the row has no more. -/
structure Rule.Shows (columns : List String) (count : Nat) (row : Row) (r : Rule) : Prop where
  names : row.entries.map (·.1) = columns
  cells : r.inputs.map (·.text) = row.entries.map (·.2)
  length : r.outputs.length = count
  outputs : ∀ j < count, r.outputs[j]?.map (·.text) = some (row.outputs[j]?.getD "")

/-- A document that shows a table, column by column and row by row. -/
structure Shows (t : Table) (l : TableLayout) (d : Document) : Prop where
  inputs : List.Forall₂ (fun column i => l.columnTexts column = [i.label, i.expression])
    t.columns d.inputs
  outputs : List.Forall₂
    (fun c o => [c.name, c.label, c.kind.typeRef] = [o.name, o.label, o.typeRef])
    l.columns d.outputs
  rules : List.Forall₂ (Rule.Shows t.columns l.columns.length) t.rows d.rules

/-- A warning that tells of a row with too few outputs, by its number. -/
structure Warns (count : Nat) (r : Nat × Row) (w : Log.Entry) : Prop where
  level : w.level = .warning
  message : w.message = "Rule " ++ toString r.1 ++ " has " ++ toString r.2.outputs.length ++
    " output values for " ++ toString count ++ " output columns"

theorem getElem?_padded {count j : Nat} (h : j < count) (outputs : List String) :
    (padded count outputs)[j]? = some (outputs[j]?.getD "") := by
  by_cases hj : j < outputs.length
  · have ht : j < (outputs.take count).length := by
      rw [List.length_take]
      omega
    rw [padded, List.getElem?_append_left ht, List.getElem?_take_of_lt h,
      List.getElem?_eq_getElem hj, Option.getD_some]
  · have hr : j - (outputs.take count).length < count - outputs.length := by
      rw [List.length_take]
      omega
    rw [padded, List.getElem?_append_right (by rw [List.length_take]; omega),
      List.getElem?_replicate_of_lt hr, List.getElem?_eq_none (Nat.not_lt.mp hj), Option.getD_none]

theorem length_padded (count : Nat) (outputs : List String) :
    (padded count outputs).length = count := by
  rw [padded, List.length_append, List.length_take, List.length_replicate]
  omega

theorem forall₂_countFrom {α β : Type} {R : α → β → Prop} {f : Nat → α → β} {xs : List α}
    (h : ∀ i, ∀ x ∈ xs, R x (f i x)) (start : Nat) :
    List.Forall₂ R xs ((countFrom start xs).map fun x => f x.1 x.2) := by
  induction xs generalizing start with
  | nil => exact .nil
  | cons x xs ih =>
    exact .cons (h start x List.mem_cons_self) (ih (fun i y hy => h i y (List.mem_cons_of_mem x hy)) _)

end Document

namespace Document

variable {t : Table} {l : TableLayout}

theorem shows_compiledRule (h : t.IsCompiled) (index : Nat) {r : Row} (hr : r ∈ t.rows) :
    Rule.Shows t.columns l.columns.length r (compiledRule t l index r) where
  names := by
    obtain ⟨outputs, g, rfl⟩ := h.rows r hr
    rw [Expr.columns_row, Expr.eraseDups_of_nodup h.nodup]
  cells := by rw [compiledRule, entries_text, h.isAligned r hr]
  length := by
    rw [← List.length_map (·.text), compiledRule, entries_text, length_padded]
  outputs j hj := by
    rw [← List.getElem?_map, compiledRule, entries_text, getElem?_padded hj]

theorem shows_ofTable (h : t.IsCompiled) (l : TableLayout) : (ofTable t l).Shows t l where
  inputs := forall₂_countFrom (fun i column _ => by
    rw [TableLayout.columnTexts, compiledInput]
    cases l.computed? column <;> rfl) 1
  outputs := forall₂_countFrom (f := compiledOutput) (fun _ _ _ => rfl) 1
  rules := forall₂_countFrom (f := compiledRule t l) (fun i _ hr => shows_compiledRule h i hr) 1

theorem nodup_partIds_ofTable (t : Table) (l : TableLayout) : (ofTable t l).partIds.Nodup := by
  have hp : (ofTable t l).partIds = (partLabels "inputExpr" 1 _ _ _).map idOf :=
    partIds_eq rfl rfl rfl ?_ ?_ ?_
  · rw [hp]
    exact nodup_partLabels_ids (by decide) (by decide)
  · intro k column
    rw [compiledInput]
    cases l.computed? column <;> rfl
  · exact fun _ _ => rfl
  · intro k r _
    rw [compiledRule, rule_ids, List.length_map, length_padded]

section Warnings

theorem begunRules_eq {rs : List Rule} (h : ∀ r ∈ rs, r.isWritable) : begunRules rs = rs := by
  induction rs with
  | nil => rfl
  | cons r rs ih =>
    obtain ⟨hr, hs⟩ := List.forall_mem_cons.mp h
    rw [begunRules, if_pos hr, ih hs]

theorem begun_eq {d : Document} (h : d.isWritable) : d.begun = d.rules := by
  rw [isWritable, Bool.and_eq_true] at h
  rw [begun, if_pos h.1, begunRules_eq (List.all_eq_true.mp h.2)]

theorem writingLog_eq (h : (ofTable t l).isWritable) : writingLog t l = shortRowLog l t.rows := by
  have hl : (ofTable t l).rules.length = t.rows.length := by
    rw [ofTable, List.length_map, length_countFrom]
  rw [writingLog, begun_eq h, hl, List.take_length]

def shortRows (count : Nat) (rows : List Row) : List (Nat × Row) :=
  (countFrom 1 rows).filter (·.2.outputs.length < count)

theorem forall₂_warns (l : TableLayout) (rows : List Row) :
    List.Forall₂ (Warns l.columns.length) (shortRows l.columns.length rows)
      (shortRowLog l rows) := by
  rw [shortRowLog, List.forall₂_map_right_iff, shortRows, List.forall₂_same]
  exact fun r _ => ⟨rfl, rfl⟩

theorem filter_shortRowLog (l : TableLayout) (rows : List Row) :
    (shortRowLog l rows).filter (·.level = .warning) = shortRowLog l rows := by
  rw [shortRowLog, List.filter_map, List.filter_eq_self.mpr fun _ _ => by simp]

end Warnings

end Document

namespace Generation

open Document

/-- The run gives the text of one document and of no other: the one that shows the table. Its parts
have different identifiers, and the rows with too few outputs, and no others, are warned of. -/
structure Presents (t : Table) (l : TableLayout) (x : String) (g : Generation) : Prop where
  document : ∃ d : Document, (∀ k : Document, k.render l.pretty = x ↔ k = d) ∧ d.Shows t l ∧
    d.ids = [l.definitionsId, l.decisionId, l.tableId] ++ d.partIds ∧ d.partIds.Nodup
  warnings : List.Forall₂ (Warns l.columns.length) (shortRows l.columns.length t.rows)
    (g.log.filter (·.level = .warning))

variable {source : Source} {subject x : String} {t : Table} {l : TableLayout}

theorem ofCompiled_eq_of_answer (h : (ofCompiled source subject l (.ok t)).answer = .ok x) :
    (ofTable t l).isWritable ∧ (ofTable t l).render l.pretty = x ∧
      (ofCompiled source subject l (.ok t)).log =
        Table.compiledLog subject t ++ writingLog t l ++ [generatedLog source t l] := by
  cases hw : (ofTable t l).isWritable with
  | true =>
    simp only [ofCompiled, compiledText, hw] at h ⊢
    exact ⟨trivial, Except.ok.inj h, rfl⟩
  | false =>
    simp only [ofCompiled, compiledText, hw] at h
    cases h

theorem presents_ofCompiled (ht : t.IsCompiled)
    (h : (ofCompiled source subject l (.ok t)).answer = .ok x) :
    (ofCompiled source subject l (.ok t)).Presents t l x := by
  obtain ⟨hw, hx, hl⟩ := ofCompiled_eq_of_answer h
  refine ⟨⟨ofTable t l, render_eq_iff hx, shows_ofTable ht l, ids_eq _,
    nodup_partIds_ofTable t l⟩, ?_⟩
  have hc : (Table.compiledLog subject t).filter (·.level = .warning) = [] := rfl
  have hg : [generatedLog source t l].filter (·.level = .warning) = [] := rfl
  rw [hl, List.filter_append, List.filter_append, hc, hg, List.nil_append, List.append_nil,
    writingLog_eq hw, filter_shortRowLog]
  exact forall₂_warns l t.rows

/-- The document of accepted rules, or of one expression, is as wide as the table everywhere and as
long: an input for every column, an output for every output column, and for every row a rule with an
entry for each of them. -/
theorem compiled_presents (l : TableLayout) (x : String) :
    (∀ rs, (ofRules rs l).answer = .ok x →
      ∃ t, Table.ofRules rs l = .ok t ∧ (ofRules rs l).Presents t l x) ∧
    ∀ e, (ofExpr e l).answer = .ok x →
      ∃ t, Table.ofExpr e l = .ok t ∧ (ofExpr e l).Presents t l x := by
  constructor
  · intro rs h
    rw [ofRules] at h ⊢
    cases ht : Table.ofRules rs l with
    | error f => rw [ht] at h; cases h
    | ok t =>
      rw [ht] at h
      exact ⟨t, rfl, presents_ofCompiled (Table.isCompiled_of_ofRules ht) h⟩
  · intro e h
    rw [ofExpr] at h ⊢
    cases ht : Table.ofExpr e l with
    | error f => rw [ht] at h; cases h
    | ok t =>
      rw [ht] at h
      exact ⟨t, rfl, presents_ofCompiled (Table.isCompiled_of_ofExpr ht) h⟩

def reviewLayout : TableLayout :=
  (TableLayout.default.withOutput (.of "decision" none .string "")).withOutput
    (.of "score" none .integer "0")

def reviewRules : List Rule :=
  [⟨.composite [⟨none, .condition (.greaterThan "amount" "500")⟩,
      ⟨some .or, .condition (.equals "class" "vip")⟩], ["\x22review\x22"]⟩,
    ⟨.alwaysTrue, ["\x22accept\x22", "10", "late"]⟩]

theorem reviewRules_presented : ∃ t x, (ofRules reviewRules reviewLayout).answer = .ok x ∧
    (ofRules reviewRules reviewLayout).Presents t reviewLayout x ∧
    t.columns = ["amount", "class"] ∧
    t.rows.map (fun r => (r.entries.map (·.2), r.outputs.length)) =
      [(["> 500", ""], 1), (["", "\x22vip\x22"], 1), (["", ""], 3)] ∧
    (shortRows 2 t.rows).map (·.1) = [1, 2] := by
  have hx : ∃ x, (ofRules reviewRules reviewLayout).answer = .ok x := ⟨_, rfl⟩
  obtain ⟨x, hx⟩ := hx
  obtain ⟨t, ht, hp⟩ := (compiled_presents reviewLayout x).1 reviewRules hx
  cases ht
  exact ⟨_, x, hx, hp, by decide, by decide, by decide⟩

end Generation

end RuleTables
