import RuleTables.Expr.Findings
import RuleTables.Proofs.Alternatives
import RuleTables.Proofs.TreeRoundTrip

namespace RuleTables.Expr

variable {e : Expr}

/-- No node after the first is joined by `or`, if the expression has nodes at all. -/
def IsUnjoined (e : Expr) : Prop :=
  ∀ ns, e = composite ns → ∀ n ∈ ns.tail, n.connective ≠ some .or

theorem isUncut_of_isUnjoined (h : e.IsUnjoined) (hn : e ≠ composite []) : e.isUncut := by
  cases e with
  | composite ns =>
    have hs : ns ≠ [] := fun he => hn (congrArg composite he)
    simpa [isUncut, hs] using h ns rfl
  | condition _ | group _ | constant _ _ | foreign _ => rfl

theorem findSome?_foreign?_of_isUncut {g : List Expr} (h : e.isUncut) (hg : e.rowGroups = [g]) :
    g.findSome? foreign? = e.foreign? := by
  cases e with
  | composite ns =>
    simp only [isUncut, Bool.and_eq_true, Bool.not_eq_true', List.isEmpty_eq_false_iff,
      List.all_eq_true, decide_eq_true_eq] at h
    rw [rowGroups, nodeGroups_eq_runs, Node.runs_eq_singleton h.1 h.2, List.map_singleton] at hg
    rw [← (List.cons.inj hg).1, List.findSome?_map, foreign?, nodesForeign?_eq_findSome?]
    rfl
  | condition _ | group _ | constant _ _ | foreign _ =>
    rw [← (List.cons.inj hg).1, List.findSome?_singleton]

theorem compileRows_group_of_isUncut (h : e.isUncut) (columns outputs : List String) :
    (group e).compileRows columns outputs = e.compileRows columns outputs := by
  obtain ⟨g, hg, hl, hh⟩ := rowGroups_of_isUncut h
  have ho : (group e).rowGroups = [[group e]] := rfl
  have hs : [group e].all holdable = g.all holdable := by
    rw [hh, List.all_cons, List.all_nil, Bool.and_true, holdable]
  have hf : groupFault? columns [group e] = groupFault? columns g := by
    rw [groupFault?, groupFault?, hs, List.findSome?_singleton, foreign?,
      findSome?_foreign?_of_isUncut h hg, hl, List.flatMap_singleton, leaves]
  have hr : row columns outputs [group e] = row columns outputs g :=
    row_congr (by rw [hl, List.flatMap_singleton, leaves])
  have hw : (group e).rowsOf columns outputs = e.rowsOf columns outputs := by
    rw [rowsOf, rowsOf, ho, hg]
    cases hb : g.all holdable <;> simp only [List.filter, hs, hb, List.map_cons, List.map_nil, hr]
  rw [compileRows, compileRows, hw, ho, hg, List.findSome?_singleton, List.findSome?_singleton, hf]

theorem parameters_group (e : Expr) : parameters [group e] = parameters [e] := by
  simp only [parameters, parameterNames, List.findSome?_singleton, foreign?,
    List.flatMap_singleton, leaves]

theorem compileRows_group_empty (columns outputs : List String) :
    (group (composite [])).compileRows columns outputs =
      .ok [⟨columns.eraseDups.map fun c => (c, ""), outputs⟩] := by
  have hr : row columns outputs [group (composite [])] =
      ⟨columns.eraseDups.map fun c => (c, ""), outputs⟩ := by
    rw [row, foldl_addName]
    rfl
  rw [← hr]
  rfl

/-- A group around an expression without `or` on its top level changes nothing about its rows, over
any columns or its own, unless the expression is a composite without nodes: that has no row, and in
a group it has the row that restricts no column. -/
theorem compileRows_group_eq_iff (h : e.IsUnjoined) (columns outputs : List String) :
    ((group e).compileRows columns outputs = e.compileRows columns outputs ↔ e ≠ composite []) ∧
    ((group e).compileOwnRows outputs = e.compileOwnRows outputs ↔ e ≠ composite []) ∧
    (e = composite [] → e.compileRows columns outputs = .ok [] ∧
      (group e).compileRows columns outputs =
        .ok [⟨columns.eraseDups.map fun c => (c, ""), outputs⟩]) := by
  by_cases he : e = composite []
  · subst he
    have hg := compileRows_group_empty columns outputs
    refine ⟨iff_of_false ?_ (not_not_intro rfl), iff_of_false ?_ (not_not_intro rfl),
      fun _ => ⟨rfl, hg⟩⟩
    · rw [hg]
      nofun
    · nofun
  · have hu := isUncut_of_isUnjoined h he
    have hr := fun columns => compileRows_group_of_isUncut hu columns outputs
    have ho : (group e).compileOwnRows outputs = e.compileOwnRows outputs := by
      rw [compileOwnRows, compileOwnRows, parameters_group]
      simp only [hr]
    exact ⟨iff_of_true (hr columns) he, iff_of_true ho he, fun h => absurd h he⟩

def vipThenRush : Expr :=
  composite [⟨some .or, condition (.equals "class" "vip")⟩,
    ⟨none, condition (.equals "rush" "true")⟩]

theorem vipThenRush_grouped : vipThenRush.IsUnjoined ∧
    (group vipThenRush).compileRows ["rush", "class"] [] =
      vipThenRush.compileRows ["rush", "class"] [] := by
  have hj : vipThenRush.IsUnjoined := by
    intro ns hn n hm
    cases hn
    rw [List.mem_singleton.mp hm]
    nofun
  exact ⟨hj, (compileRows_group_eq_iff hj ["rush", "class"] []).1.mpr nofun⟩

/-- A composite without nodes can be sent, and it passes validation. -/
theorem emptyGrouped_gains_row :
    read false (.object [("type", .text "group"),
      ("expression", .object [("type", .text "composite"), ("nodes", .list [])])]) =
        .ok (group (composite [])) ∧
    (group (composite [])).validate.isValid ∧
    (composite []).compileRows ["class"] [] = .ok [] ∧
    (group (composite [])).compileRows ["class"] [] = .ok [⟨[("class", "")], []⟩] := by
  have hr := read_tree false (e := group (composite [])) (by decide)
  exact ⟨hr, by decide, rfl, rfl⟩

end RuleTables.Expr
