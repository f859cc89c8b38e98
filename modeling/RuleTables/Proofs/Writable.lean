import RuleTables.Proofs.Alternatives
import RuleTables.Proofs.DocumentText
import RuleTables.Proofs.RowSplit

namespace RuleTables

namespace Xml

/-- The control characters but for tabs and the ends of lines, and the two code points that are no
characters. -/
def IsRefused (c : Char) : Prop :=
  (c.toNat < 0x20 ∧ c ≠ '\t' ∧ c ≠ '\n' ∧ c ≠ '\r') ∨ c.toNat = 0xfffe ∨ c.toNat = 0xffff

def Refuses (s : String) : Prop :=
  ∃ c ∈ s.toList, IsRefused c

instance (c : Char) : Decidable (IsRefused c) :=
  inferInstanceAs (Decidable (_ ∨ _))

instance (s : String) : Decidable (Refuses s) :=
  List.decidableBEx IsRefused s.toList

theorem isWritable_iff {c : Char} : isWritable c ↔ ¬ IsRefused c := by
  simp only [isWritable, IsRefused, Bool.and_eq_true, Bool.or_eq_true, decide_eq_true_eq,
    ← Nat.not_lt]
  tauto

theorem allWritable_iff {s : String} : allWritable s ↔ ¬ Refuses s := by
  rw [allWritable, List.all_eq_true, Refuses, not_exists]
  exact forall_congr' fun c => by rw [isWritable_iff, not_and]

theorem allWritable_all_iff {texts : List String} :
    texts.all allWritable ↔ ∀ s ∈ texts, ¬ Refuses s := by
  rw [List.all_eq_true]
  exact forall₂_congr fun s _ => allWritable_iff

theorem not_refuses_empty : ¬ Refuses "" := allWritable_iff.mp (by decide)

theorem not_refuses_typeRef (k : Kind) : ¬ Refuses k.typeRef :=
  allWritable_iff.mp (by cases k <;> decide)

end Xml

namespace Document

open Xml

section Parts

variable {d : Document}

def texts (d : Document) : List String :=
  d.heading ++ d.columnTexts ++ d.rules.flatMap (·.texts)

theorem isWritable_iff : d.isWritable ↔ ∀ s ∈ d.texts, ¬ Refuses s := by
  have rules : d.rulesWritable ↔ ∀ s ∈ d.rules.flatMap (·.texts), ¬ Refuses s := by
    rw [← allWritable_all_iff, List.all_flatMap]
    rfl
  rw [isWritable, Bool.and_eq_true, Bool.and_eq_true, headingWritable, columnsWritable,
    allWritable_all_iff, allWritable_all_iff, rules, texts, List.forall_mem_append,
    List.forall_mem_append]

theorem forall_mem_countFrom {α : Type} {p : Nat → α → Prop} {q : α → Prop} {start : Nat}
    {xs : List α} (h : ∀ i, ∀ x ∈ xs, p i x ↔ q x) :
    (∀ x ∈ countFrom start xs, p x.1 x.2) ↔ ∀ x ∈ xs, q x := by
  induction xs generalizing start with
  | nil => simp [countFrom]
  | cons x xs ih =>
    rw [countFrom, List.forall_mem_cons, List.forall_mem_cons, h start x List.mem_cons_self,
      ih fun i y hy => h i y (List.mem_cons_of_mem x hy)]

theorem forall_mem_numbered {α β : Type} {f : Nat → α → β} {p : β → Prop} {q : α → Prop}
    {start : Nat} {xs : List α} (h : ∀ i, ∀ x ∈ xs, p (f i x) ↔ q x) :
    (∀ y ∈ (countFrom start xs).map fun x => f x.1 x.2, p y) ↔ ∀ x ∈ xs, q x :=
  List.forall_mem_map.trans (forall_mem_countFrom (p := fun i x => p (f i x)) h)

theorem forall_mem_padded {p : String → Prop} (hp : p "") {count : Nat} {outputs : List String} :
    (∀ s ∈ padded count outputs, p s) ↔ ∀ s ∈ outputs.take count, p s := by
  rw [padded, List.forall_mem_append]
  exact and_iff_left fun s hs => List.eq_of_mem_replicate hs ▸ hp

end Parts

end Document

def TableLayout.columnTexts (l : TableLayout) (column : String) : List String :=
  match l.computed? column with
  | some c => [c.label, c.expression]
  | none => [l.labelOf column, column]

/-- The texts of a table that get into its document. Of the outputs of a row there are as many as
there are output columns. -/
def Table.written (t : Table) (l : TableLayout) : List String :=
  [l.definitionsId, l.definitionsName, l.decisionId, l.decisionName, l.tableId] ++
    t.columns.flatMap l.columnTexts ++ l.columns.flatMap (fun c => [c.label, c.name]) ++
    t.rows.flatMap fun r => r.entries.map (·.2) ++ r.outputs.take l.columns.length

def Table.IsAligned (t : Table) : Prop :=
  ∀ r ∈ t.rows, t.columns.map (fun column => (Assoc.find? column r.entries).getD "") =
    r.entries.map (·.2)

namespace Document

open Xml

theorem forall_compiledInput (l : TableLayout) (index : Nat) (column : String) :
    (∀ s ∈ [(compiledInput l index column).label, (compiledInput l index column).typeRef,
      (compiledInput l index column).expression], ¬ Refuses s) ↔
        ∀ s ∈ l.columnTexts column, ¬ Refuses s := by
  rw [compiledInput, TableLayout.columnTexts]
  cases l.computed? column <;> simp [not_refuses_typeRef]

theorem isWritable_ofTable_iff {t : Table} {l : TableLayout} (h : t.IsAligned) :
    (ofTable t l).isWritable ↔ ∀ s ∈ t.written l, ¬ Refuses s := by
  rw [isWritable_iff, texts, Table.written]
  have inputs : (∀ i ∈ (ofTable t l).inputs, ∀ s ∈ [i.label, i.typeRef, i.expression],
      ¬ Refuses s) ↔ ∀ column ∈ t.columns, ∀ s ∈ l.columnTexts column, ¬ Refuses s :=
    forall_mem_numbered fun index column _ => forall_compiledInput l index column
  have outputs : (∀ o ∈ (ofTable t l).outputs, ∀ s ∈ [o.label, o.name, o.typeRef],
      ¬ Refuses s) ↔ ∀ c ∈ l.columns, ∀ s ∈ [c.label, c.name], ¬ Refuses s :=
    forall_mem_numbered fun index c _ => by simp [compiledOutput, not_refuses_typeRef]
  have rules : (∀ r ∈ (ofTable t l).rules, ∀ s ∈ r.texts, ¬ Refuses s) ↔ ∀ r ∈ t.rows,
      ∀ s ∈ r.entries.map (·.2) ++ r.outputs.take l.columns.length, ¬ Refuses s :=
    forall_mem_numbered fun index r hr => by
      rw [Rule.texts, compiledRule, entries_text, entries_text, h r hr, List.forall_mem_append,
        forall_mem_padded not_refuses_empty, List.forall_mem_append]
  have heading : (ofTable t l).heading =
      [l.definitionsId, l.definitionsName, l.decisionId, l.decisionName, l.tableId] := rfl
  simp only [List.forall_mem_append, List.forall_mem_flatMap, columnTexts, heading, inputs, outputs,
    rules, and_assoc]

end Document

/-- Different columns, and rows over them that were made of groups of conditions. -/
structure Table.IsCompiled (t : Table) : Prop where
  nodup : t.columns.Nodup
  rows : ∀ r ∈ t.rows, ∃ outputs g, r = Expr.row t.columns outputs g

namespace Table

variable {t : Table} {l : TableLayout}

theorem IsCompiled.isAligned (h : t.IsCompiled) : t.IsAligned := by
  intro r hr
  obtain ⟨outputs, g, rfl⟩ := h.rows r hr
  have cells : (Expr.row t.columns outputs g).entries.map (·.2) =
      t.columns.map (Expr.cell (g.flatMap Expr.leaves)) := by
    rw [Expr.entries_row, Expr.eraseDups_of_nodup h.nodup, List.map_map]
    rfl
  rw [cells]
  refine List.map_congr_left fun column hc => ?_
  rw [Expr.find?_row outputs g hc]
  rfl

theorem nodup_columnsOf (es : List Expr) (l : TableLayout) : (columnsOf es l).Nodup := by
  rw [columnsOf_eq]
  exact Expr.nodup_eraseDups _

theorem isCompiled_of_ofRules {rs : List Rule} (h : ofRules rs l = .ok t) : t.IsCompiled := by
  obtain ⟨-, hc, hr⟩ := ofRules_eq_ok_iff.mp h
  refine ⟨hc ▸ nodup_columnsOf _ l, fun r hm => ?_⟩
  rw [hr] at hm
  obtain ⟨q, -, hq⟩ := List.mem_flatMap.mp hm
  obtain ⟨g, -, rfl⟩ := List.mem_map.mp hq
  exact ⟨q.outputs, g, by rw [hc]⟩

theorem isCompiled_of_ofExpr {e : Expr} (h : ofExpr e l = .ok t) : t.IsCompiled := by
  obtain ⟨columns, hc, h⟩ := bind_eq_ok_iff.mp h
  obtain ⟨-, rfl⟩ := Expr.guarded_eq_ok_iff.mp hc
  obtain ⟨rows, hr, h⟩ := bind_eq_ok_iff.mp h
  obtain ⟨-, rfl⟩ := Expr.compileRows_returns_iff.mp hr
  obtain rfl := Except.ok.inj h
  refine ⟨nodup_columnsOf _ l, fun r hm => ?_⟩
  obtain ⟨g, -, rfl⟩ := List.mem_map.mp hm
  exact ⟨_, g, rfl⟩

theorem exists_ofRules {rs : List Rule} (h : ∀ r ∈ rs, r.condition.isComplete) :
    ∃ t, ofRules rs l = .ok t ∧ t.IsAligned := by
  have ht : ∃ t, ofRules rs l = .ok t :=
    ⟨⟨_, _⟩, ofRules_eq_ok_iff.mpr
      ⟨fun r hr => Expr.isCompilable_of_isComplete (h r hr), rfl, rfl⟩⟩
  obtain ⟨t, ht⟩ := ht
  exact ⟨t, ht, (isCompiled_of_ofRules ht).isAligned⟩

theorem exists_ofExpr {e : Expr} (h : e.isComplete) :
    ∃ t, ofExpr e l = .ok t ∧ t.IsAligned :=
  ⟨_, ofExpr_eq_ok h, (isCompiled_of_ofExpr (ofExpr_eq_ok h)).isAligned⟩

end Table

namespace Generation

/-- The run fails, as a generation, just when one of the texts holds a character that is refused,
and else it gives a document. -/
def FailsOn (g : Generation) (texts : List String) : Prop :=
  ((∃ f, g.answer = .error f ∧ f.kind = .generation) ↔ ∃ s ∈ texts, Xml.Refuses s) ∧
    ((∃ x, g.answer = .ok x) ↔ ¬ ∃ s ∈ texts, Xml.Refuses s)

theorem failsOn_ofCompiled (source : Source) (subject : String) {t : Table} {l : TableLayout}
    (h : t.IsAligned) : (ofCompiled source subject l (.ok t)).FailsOn (t.written l) := by
  have hw : (Document.ofTable t l).isWritable ↔ ¬ ∃ s ∈ t.written l, Xml.Refuses s := by
    rw [Document.isWritable_ofTable_iff h]
    simp only [not_exists, not_and]
  rw [FailsOn, answer_ofCompiled, Document.compiledText]
  by_cases hr : ∃ s ∈ t.written l, Xml.Refuses s
  · have hb : (Document.ofTable t l).isWritable = false :=
      Bool.eq_false_iff.mpr fun hb => hw.mp hb hr
    simp only [hb]
    exact ⟨iff_of_true ⟨_, rfl, rfl⟩ hr, iff_of_false (by simp) (not_not_intro hr)⟩
  · simp only [hw.mpr hr]
    exact ⟨iff_of_false (by simp) hr, iff_of_true ⟨_, rfl⟩ hr⟩

/-- Rules whose conditions have their operators give a table, and so does one expression. The run
that writes it fails just when a text that gets into the document holds a character that is
refused, and it fails in no other way. -/
theorem failsOn_written (l : TableLayout) :
    (∀ rs : List Rule, (∀ r ∈ rs, r.condition.isComplete) →
      ∃ t, Table.ofRules rs l = .ok t ∧ (ofRules rs l).FailsOn (t.written l)) ∧
    ∀ e : Expr, e.isComplete →
      ∃ t, Table.ofExpr e l = .ok t ∧ (ofExpr e l).FailsOn (t.written l) := by
  constructor
  · intro rs h
    obtain ⟨t, ht, ha⟩ := Table.exists_ofRules (l := l) h
    exact ⟨t, ht, by rw [ofRules, ht]; exact failsOn_ofCompiled _ _ ha⟩
  · intro e h
    obtain ⟨t, ht, ha⟩ := Table.exists_ofExpr (l := l) h
    exact ⟨t, ht, by rw [ofExpr, ht]; exact failsOn_ofCompiled _ _ ha⟩

def bellRules : List Rule :=
  [⟨.condition (.greaterThan "amount\x07" "10"), ["\x22high\x22", "\x07"]⟩]

def bellLayout : TableLayout :=
  TableLayout.default.withComputed ⟨"amount\x07", "Amount", "order.amount", .integer⟩

theorem bellRules_failsOn : (∀ r ∈ bellRules, r.condition.isComplete) ∧
    (∃ x, (ofRules bellRules bellLayout).answer = .ok x) ∧
    ∃ f, (ofRules bellRules .default).answer = .error f ∧ f.kind = .generation := by
  have hc : ∀ r ∈ bellRules, r.condition.isComplete := by decide
  have table : ∀ l, (l = bellLayout ∨ l = .default) →
      Table.ofRules bellRules l = .ok ⟨["amount\x07"],
        [⟨[("amount\x07", "> 10")], ["\x22high\x22", "\x07"]⟩]⟩ := by
    rintro l (rfl | rfl) <;> rfl
  refine ⟨hc, ?_, ?_⟩
  · obtain ⟨t, ht, -, hf⟩ := (failsOn_written bellLayout).1 bellRules hc
    obtain rfl := Except.ok.inj (ht.symm.trans (table _ (.inl rfl)))
    exact hf.mpr (by decide)
  · obtain ⟨t, ht, hf, -⟩ := (failsOn_written .default).1 bellRules hc
    obtain rfl := Except.ok.inj (ht.symm.trans (table _ (.inr rfl)))
    exact hf.mpr (by decide)

end Generation

end RuleTables
