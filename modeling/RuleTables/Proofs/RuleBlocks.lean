import Mathlib.Data.List.Forall2
import RuleTables.Proofs.Columns
import RuleTables.Proofs.Outcome

namespace RuleTables

namespace Expr

variable {e : Expr} {columns : List String} {rows : List Row}

/-- What the rows of an expression need: it is made of expressions, and the conditions of a group
that becomes a row have their operators. -/
def isCompilable (e : Expr) : Bool :=
  e.foreign?.isNone && e.compiledGroups.all fun g => (g.flatMap leaves).all (·.operator.isSome)

theorem isCompilable_iff : e.isCompilable ↔ e.foreign? = none ∧
    ∀ g ∈ e.compiledGroups, ∀ c ∈ g.flatMap leaves, c.operator.isSome := by
  simp only [isCompilable, Bool.and_eq_true, Option.isNone_iff_eq_none, List.all_eq_true]

theorem isCompilable_of_isComplete (h : e.isComplete) : e.isCompilable := by
  refine isCompilable_iff.mpr ⟨foreign?_eq_none h, fun g hg c hc => ?_⟩
  obtain ⟨x, hx, hc⟩ := List.mem_flatMap.mp hc
  exact operator_isSome (isComplete_of_mem_rowGroups h (List.mem_filter.mp hg).1 hx) c hc

theorem foreign?_of_mem_rowGroups (h : e.foreign? = none) {g : List Expr} (hg : g ∈ e.rowGroups) :
    g.findSome? foreign? = none := by
  refine List.findSome?_eq_none_iff.mpr fun x hx => ?_
  obtain rfl | ⟨ns, rfl, n, hn, rfl⟩ := mem_rowGroups hg hx
  · exact h
  · rw [foreign?, nodesForeign?_eq_findSome?, List.findSome?_eq_none_iff] at h
    exact h n hn

theorem compileRows_eq_ok_iff (outputs : List String) (hf : e.foreign? = none)
    (hc : ∀ c ∈ e.leaves, c.parameter ∈ columns) : e.compileRows columns outputs = .ok rows ↔
      e.isCompilable ∧ e.compiledGroups.map (row columns outputs) = rows := by
  rw [compileRows, guarded_eq_ok_iff, List.findSome?_eq_none_iff, isCompilable_iff]
  -- every condition has a column, so the columns play no part in what is missing
  refine and_congr ⟨fun h => ⟨hf, fun g hg c hl => ?_⟩, fun h g hg => ?_⟩ Iff.rfl
  · obtain ⟨hg, hh⟩ := List.mem_filter.mp hg
    have hp : c.parameter ∈ columns := hc c (mem_leaves_of_mem_rowGroups hg hl)
    exact (groupFault?_eq_none_iff.mp (h g hg)).2 hh c hl hp
  · refine groupFault?_eq_none_iff.mpr ⟨foreign?_of_mem_rowGroups hf hg, fun hh c hl _ => ?_⟩
    exact h.2 g (List.mem_filter.mpr ⟨hg, hh⟩) c hl

theorem compileOwnRows_eq_ok_iff {outputs : List String} : e.compileOwnRows outputs = .ok rows ↔
    e.isCompilable ∧ e.compiledGroups.map (row (parameterNames [e]) outputs) = rows := by
  have hc : ∀ c ∈ e.leaves, c.parameter ∈ parameterNames [e] := fun c hm => by
    rw [parameterNames_eq, List.mem_eraseDups, mem_namesIn_singleton]
    exact ⟨c, hm, rfl⟩
  rw [compileOwnRows, parameters_singleton, bind_eq_ok_iff]
  constructor
  · rintro ⟨ps, hps, h⟩
    obtain ⟨hf, rfl⟩ := guarded_eq_ok_iff.mp hps
    exact (compileRows_eq_ok_iff outputs hf hc).mp h
  · intro h
    have hf := (isCompilable_iff.mp h.1).1
    exact ⟨_, guarded_eq_ok_iff.mpr ⟨hf, rfl⟩, (compileRows_eq_ok_iff outputs hf hc).mpr h⟩

end Expr

def Rule.block (columns : List String) (r : Rule) : List Row :=
  r.condition.compiledGroups.map (Expr.row columns r.outputs)

/-- A row of a rule in a table, beside the row `alone` that the rule has over its own parameters. -/
structure Row.Carries (columns : List String) (r : Rule) (alone row : Row) : Prop where
  outputs : row.outputs = r.outputs
  names : row.entries.map (·.1) = columns
  same : ∀ name ∈ Expr.namesIn [r.condition], ∃ text,
    Assoc.find? name alone.entries = some text ∧ Assoc.find? name row.entries = some text
  free : ∀ name ∈ columns, name ∉ Expr.namesIn [r.condition] →
    Assoc.find? name row.entries = some ""

/-- The rows carry what the rule has on its own, row by row. -/
def Rule.IsBlock (columns : List String) (r : Rule) (rows : List Row) : Prop :=
  ∃ alone, r.condition.compileOwnRows [] = .ok alone ∧
    List.Forall₂ (Row.Carries columns r) alone rows

namespace Table

variable {rs : List Rule} {l : TableLayout} {columns : List String} {rows : List Row} {t : Table}

theorem ruleRows_eq_ok_iff (hf : ∀ r ∈ rs, r.condition.foreign? = none)
    (hc : ∀ r ∈ rs, ∀ c ∈ r.condition.leaves, c.parameter ∈ columns) :
    ruleRows columns rs = .ok rows ↔
      (∀ r ∈ rs, r.condition.isCompilable) ∧ rs.flatMap (·.block columns) = rows := by
  induction rs generalizing rows with
  | nil => simp [ruleRows]
  | cons r rs ih =>
    have ih := fun rows => @ih rows (fun s hs => hf s (List.mem_cons_of_mem r hs))
      fun s hs => hc s (List.mem_cons_of_mem r hs)
    rw [ruleRows, bind_eq_ok_iff, List.forall_mem_cons, List.flatMap_cons]
    constructor
    · rintro ⟨own, ho, h⟩
      obtain ⟨later, hl, h⟩ := bind_eq_ok_iff.mp h
      obtain ⟨hr, rfl⟩ := (Expr.compileRows_eq_ok_iff r.outputs (hf r List.mem_cons_self)
        (hc r List.mem_cons_self)).mp ho
      obtain ⟨hs, rfl⟩ := (ih later).mp hl
      exact ⟨⟨hr, hs⟩, Except.ok.inj h⟩
    · rintro ⟨⟨hr, hs⟩, rfl⟩
      have ho := (Expr.compileRows_eq_ok_iff r.outputs (hf r List.mem_cons_self)
        (hc r List.mem_cons_self)).mpr ⟨hr, rfl⟩
      exact ⟨_, ho, bind_eq_ok_iff.mpr ⟨_, (ih _).mpr ⟨hs, rfl⟩, rfl⟩⟩

theorem mem_columnsOf {es : List Expr} {e : Expr} (he : e ∈ es) {c : Condition}
    (hc : c ∈ e.leaves) : c.parameter ∈ columnsOf es l := by
  rw [columnsOf_eq, List.mem_eraseDups, List.mem_append, Expr.mem_namesIn]
  exact .inl ⟨c, List.mem_flatMap.mpr ⟨e, he, hc⟩, rfl⟩

theorem ofRules_eq_ok_iff : ofRules rs l = .ok t ↔ (∀ r ∈ rs, r.condition.isCompilable) ∧
    t.columns = columnsOf (rs.map (·.condition)) l ∧
    t.rows = rs.flatMap (·.block (columnsOf (rs.map (·.condition)) l)) := by
  have hc : ∀ r ∈ rs, ∀ c ∈ r.condition.leaves,
      c.parameter ∈ columnsOf (rs.map (·.condition)) l :=
    fun r hr c hm => mem_columnsOf (List.mem_map_of_mem hr) hm
  have hn : (rs.map (·.condition)).findSome? Expr.foreign? = none ↔
      ∀ r ∈ rs, r.condition.foreign? = none := by
    rw [List.findSome?_eq_none_iff, List.forall_mem_map]
  rw [ofRules, compileColumns, bind_eq_ok_iff]
  constructor
  · rintro ⟨columns, hcs, h⟩
    obtain ⟨hf, rfl⟩ := Expr.guarded_eq_ok_iff.mp hcs
    obtain ⟨rows, hr, h⟩ := bind_eq_ok_iff.mp h
    obtain ⟨ha, rfl⟩ := (ruleRows_eq_ok_iff (hn.mp hf) hc).mp hr
    rw [← Except.ok.inj h]
    exact ⟨ha, rfl, rfl⟩
  · rintro ⟨ha, hcs, hr⟩
    have hf : ∀ r ∈ rs, r.condition.foreign? = none := fun r hm =>
      (Expr.isCompilable_iff.mp (ha r hm)).1
    have hrows := (ruleRows_eq_ok_iff hf hc).mpr ⟨ha, rfl⟩
    refine ⟨_, Expr.guarded_eq_ok_iff.mpr ⟨hn.mpr hf, rfl⟩, bind_eq_ok_iff.mpr ⟨_, hrows, ?_⟩⟩
    rw [← hr, ← hcs]
    rfl

end Table

namespace Rule

variable {r : Rule} {columns : List String} {g : List Expr}

theorem carries_row (hd : columns.Nodup) (hc : ∀ name ∈ Expr.namesIn [r.condition], name ∈ columns)
    (hg : g ∈ r.condition.compiledGroups) :
    Row.Carries columns r (Expr.row (Expr.parameterNames [r.condition]) [] g)
      (Expr.row columns r.outputs g) where
  outputs := rfl
  names := by rw [Expr.columns_row, Expr.eraseDups_of_nodup hd]
  same := by
    intro name hm
    have ho : name ∈ Expr.parameterNames [r.condition] := by
      rwa [Expr.parameterNames_eq, List.mem_eraseDups]
    exact ⟨_, Expr.find?_row [] g ho, Expr.find?_row r.outputs g (hc name hm)⟩
  free := by
    intro name hm hn
    rw [Expr.find?_row r.outputs g hm, Expr.cell_eq_empty]
    intro c hl he
    have hl := Expr.mem_leaves_of_mem_rowGroups (List.mem_filter.mp hg).1 hl
    exact hn (Expr.mem_namesIn_singleton.mpr ⟨c, hl, he⟩)

theorem isBlock_block (hd : columns.Nodup)
    (hc : ∀ name ∈ Expr.namesIn [r.condition], name ∈ columns) (h : r.condition.isCompilable) :
    r.IsBlock columns (r.block columns) := by
  refine ⟨_, Expr.compileOwnRows_eq_ok_iff.mpr ⟨h, rfl⟩, ?_⟩
  rw [block, List.forall₂_map_left_iff, List.forall₂_map_right_iff, List.forall₂_same]
  exact fun g hg => carries_row hd hc hg

end Rule

namespace Table

/-- Rules give a table just when each of them has rows on its own. No column comes twice: first come
all parameters, then the computed inputs that are not among them. The rows are one block for each
rule, and neither the other rules nor the computed inputs change what its block says. -/
theorem ofRules_blocks (rs : List Rule) (l : TableLayout) :
    ((∃ t, ofRules rs l = .ok t) ↔
      ∀ r ∈ rs, ∃ alone, r.condition.compileOwnRows [] = .ok alone) ∧
    ∀ t, ofRules rs l = .ok t →
      t.columns.Nodup ∧
      t.columns = (Expr.namesIn (rs.map (·.condition))).eraseDups ++
        ((l.computed.map (·.name)).removeAll (Expr.namesIn (rs.map (·.condition)))).eraseDups ∧
      ∃ blocks, t.rows = blocks.flatten ∧ List.Forall₂ (Rule.IsBlock t.columns) rs blocks := by
  refine ⟨⟨?_, ?_⟩, ?_⟩
  · rintro ⟨t, h⟩ r hr
    exact ⟨_, Expr.compileOwnRows_eq_ok_iff.mpr ⟨(ofRules_eq_ok_iff.mp h).1 r hr, rfl⟩⟩
  · intro h
    refine ⟨⟨_, _⟩, ofRules_eq_ok_iff.mpr ⟨fun r hr => ?_, rfl, rfl⟩⟩
    obtain ⟨alone, ha⟩ := h r hr
    exact (Expr.compileOwnRows_eq_ok_iff.mp ha).1
  · intro t h
    obtain ⟨ha, hc, hr⟩ := ofRules_eq_ok_iff.mp h
    have hnames := hc.trans (columnsOf_eq _ l)
    have hd : t.columns.Nodup := hnames ▸ Expr.nodup_eraseDups _
    refine ⟨hd, hnames.trans List.eraseDups_append, rs.map (·.block t.columns), ?_, ?_⟩
    · rw [hr, hc, List.flatMap_def]
    · rw [List.forall₂_map_right_iff, List.forall₂_same]
      refine fun r hm => Rule.isBlock_block hd (fun name hn => ?_) (ha r hm)
      obtain ⟨c, hl, rfl⟩ := Expr.mem_namesIn_singleton.mp hn
      rw [hc]
      exact mem_columnsOf (List.mem_map_of_mem hm) hl

def amountRules : List Rule :=
  [⟨.composite [⟨none, .condition (.greaterThan "amount" "500")⟩,
      ⟨some .or, .condition (.equals "class" "vip")⟩], ["\x22manual\x22"]⟩,
    ⟨.group (.condition (.lessThan "amount" "10")), ["\x22auto\x22"]⟩]

def computedLayout : TableLayout :=
  ((TableLayout.default.withComputed ⟨"class", "Class", "customer.class", .string⟩).withComputed
    ⟨"weekend", "Weekend", "day > 5", .boolean⟩).withComputed
      ⟨"weekend", "Weekend", "day > 5", .boolean⟩

theorem amountRules_blocks : ∃ t, ofRules amountRules computedLayout = .ok t ∧
    t.columns = ["amount", "class", "weekend"] ∧
    ∃ blocks, t.rows = blocks.flatten ∧
      List.Forall₂ (Rule.IsBlock t.columns) amountRules blocks := by
  have hc : ∀ r ∈ amountRules, r.condition.isCompilable := by decide
  obtain ⟨hok, hall⟩ := ofRules_blocks amountRules computedLayout
  obtain ⟨t, ht⟩ := hok.mpr fun r hr => ⟨_, Expr.compileOwnRows_eq_ok_iff.mpr ⟨hc r hr, rfl⟩⟩
  obtain ⟨-, hcols, hblocks⟩ := hall t ht
  exact ⟨t, ht, hcols, hblocks⟩

end Table

end RuleTables
