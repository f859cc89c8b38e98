import RuleTables.Proofs.JsonText
import RuleTables.Proofs.Outcome
import RuleTables.Proofs.TreeRoundTrip

namespace RuleTables.Expr

section Sorted

theorem sorted_tree_condition (c : Condition) : (condition c).tree.sorted =
    .object [("dataType", .text c.kind.typeRef), ("grouped", .bool c.grouped),
      ("operator", (c.operator.map fun op => Json.text op.name).getD .null),
      ("parameter", .text c.parameter), ("type", .text "condition"), ("value", .text c.value)] := by
  cases ho : c.operator <;>
    simp [tree, Condition.tree, ho, Json.sorted, Json.sortedMembers, Json.insertByName,
      Json.comesBefore]

theorem sortedItems_nodeTrees (ns : List (Node Expr)) : Json.sortedItems (nodeTrees ns) =
    ns.map fun n => .object [("connective", connectiveTree n.connective),
      ("expression", n.child.tree.sorted)] := by
  induction ns with
  | nil => rfl
  | cons n ns ih =>
    obtain ⟨c, e⟩ := n
    cases c <;>
      simp [nodeTrees, Json.sortedItems, Json.sorted, Json.sortedMembers, Json.insertByName,
        Json.comesBefore, connectiveTree, ih]

theorem sorted_tree_composite (ns : List (Node Expr)) : (composite ns).tree.sorted =
    .object [("nodes", .list (ns.map fun n => .object [("connective", connectiveTree n.connective),
      ("expression", n.child.tree.sorted)])), ("type", .text "composite")] := by
  simp [tree, Json.sorted, Json.sortedMembers, Json.insertByName, Json.comesBefore,
    sortedItems_nodeTrees]

theorem sorted_tree_group (e : Expr) : (group e).tree.sorted =
    .object [("expression", e.tree.sorted), ("type", .text "group")] := by
  simp [tree, Json.sorted, Json.sortedMembers, Json.insertByName, Json.comesBefore]

theorem sorted_tree_constant (b : Bool) (label : String) : (constant b label).tree.sorted =
    .object [("label", .text label), ("type", .text "constant"), ("value", .bool b)] := by
  simp [tree, Json.sorted, Json.sortedMembers, Json.insertByName, Json.comesBefore]

end Sorted

variable {e : Expr}

theorem isPlain_connectiveTree (c : Option Connective) : (connectiveTree c).isPlain := by
  cases c <;> rfl

theorem isPlain_sorted_tree (h : e.isComplete) : e.tree.sorted.isPlain := by
  induction e with
  | condition c =>
    rw [sorted_tree_condition, Json.isPlain_object]
    refine ⟨by simp, ?_⟩
    cases c.operator <;> simp [Json.isPlain]
  | composite ns ih =>
    rw [sorted_tree_composite, Json.isPlain_object]
    refine ⟨by simp, ?_⟩
    simp only [List.forall_mem_cons, Json.isPlain_list, List.forall_mem_map, Json.isPlain_object]
    refine ⟨fun n hn => ⟨by simp, ?_⟩, rfl, List.forall_mem_nil _⟩
    exact ⟨isPlain_connectiveTree _, ih n hn (isComplete_composite.mp h n hn),
      List.forall_mem_nil _⟩
  | group e ih =>
    rw [sorted_tree_group, Json.isPlain_object]
    simp [Json.isPlain, ih (isComplete_group.mp h)]
  | constant b label =>
    rw [sorted_tree_constant, Json.isPlain_object]
    simp [Json.isPlain]
  | foreign v => cases h

section Reading

variable {ns : List (Node Expr)}

theorem ofTree_sorted_condition (strict : Bool) {c : Condition} (h : c.operator.isSome) :
    ofTree strict (condition c).tree.sorted = .ok (condition c) := by
  rw [sorted_tree_condition]
  obtain ⟨parameter, operator, value, kind, grouped⟩ := c
  obtain ⟨op, rfl⟩ := Option.isSome_iff_exists.mp h
  simp [ofTree, Condition.ofTree, textField?, Assoc.find?, Condition.operatorOf, Condition.valueOf,
    Operator.ofName?_name, Condition.kindOf_typeRef, Condition.of, bind, Except.bind, pure,
    Except.pure, Except.map]

theorem nodesOfEntries_sorted (strict : Bool) (whole : Json)
    (h : ∀ n ∈ ns, ofTree strict n.child.tree.sorted = .ok n.child) :
    nodesOfEntries strict whole (ns.map fun n => .object
      [("connective", connectiveTree n.connective), ("expression", n.child.tree.sorted)]) =
        .ok ns := by
  induction ns with
  | nil => rw [List.map_nil, nodesOfEntries]
  | cons n ns ih =>
    obtain ⟨hn, hs⟩ := List.forall_mem_cons.mp h
    have hc : nodeOfTree strict whole (.object [("connective", connectiveTree n.connective),
        ("expression", n.child.tree.sorted)]) = .ok n := by
      rw [nodeOfTree, connectiveOfTree_connectiveTree]
      simp [childIn, hn, bind, Except.bind, pure, Except.pure]
    rw [List.map_cons, nodesOfEntries, hc, ih hs]
    rfl

theorem ofTree_sorted (strict : Bool) (h : e.isComplete) (hl : strict → e.isLaidOut) :
    ofTree strict e.tree.sorted = .ok e := by
  induction e with
  | condition c => exact ofTree_sorted_condition strict h
  | composite ns ih =>
    have hs := fun whole => nodesOfEntries_sorted strict whole fun n hn =>
      ih n hn (isComplete_composite.mp h n hn) fun hb => (isLaidOut_composite.mp (hl hb)).2 n hn
    have hc : ∀ whole, compositeOfTree strict whole ns = .ok (composite ns) := by
      cases strict with
      | false => exact fun whole => rfl
      | true => simp [compositeOfTree, (isLaidOut_composite.mp (hl rfl)).1]
    rw [sorted_tree_composite]
    simp [ofTree, Assoc.find?, nodesIn, nodesOfTree, hs, hc, bind, Except.bind]
  | group e ih =>
    have he := ih (isComplete_group.mp h) fun hb => isLaidOut_group.mp (hl hb)
    rw [sorted_tree_group]
    simp [ofTree, Assoc.find?, childIn, he, Except.map]
  | constant b label =>
    rw [sorted_tree_constant]
    simp [ofTree, constantOfTree, textField?, constantOf, Assoc.find?, bind, Except.bind,
        pure, Except.pure]
  | foreign v => cases h

theorem ofTree_sorted_tree (h : e.isComplete) (hl : e.isLaidOut) :
    ofTree true e.tree.sorted = .ok e :=
  ofTree_sorted true h fun _ => hl

end Reading

theorem parse_jsonText (h : e.isComplete) (broken : Bool) :
    Json.parse (e.jsonText broken) = .ok e.tree.sorted := by
  cases broken with
  | false => exact Json.parse_render Json.isLoose_compact (isPlain_sorted_tree h)
  | true => exact Json.parse_render Json.isLoose_pretty (isPlain_sorted_tree h)

/-- An expression whose composites are laid out properly has a JSON text, on one line and on many,
and comes back from it in every field, whatever characters are in its texts. -/
theorem ofJsonText_toJsonText (h : e.isComplete) (hl : e.isLaidOut) (broken : Bool) :
    ∃ s, e.toJsonText broken = .ok s ∧ ofJsonText s = .ok e := by
  refine ⟨e.jsonText broken, ?_, ?_⟩
  · rw [toJsonText, obstacle?_eq_none h]
    rfl
  · rw [ofJsonText, bind_eq_ok_iff]
    refine ⟨_, mapError_eq_ok_iff.mpr (parse_jsonText h broken), ?_⟩
    rw [read, ofTree_sorted_tree h hl]
    rfl

def pathOrNever : Expr :=
  composite [⟨none,
      group (condition ⟨"path", some .contains, "C:\\\x22tmp\x22\n\x01", .string, false⟩)⟩,
    ⟨some .or, constant false "nie 🛇"⟩]

theorem pathOrNever_comes_back : pathOrNever.isComplete ∧ pathOrNever.isLaidOut ∧
    ∃ s, pathOrNever.toJsonText true = .ok s ∧ ofJsonText s = .ok pathOrNever := by
  have hc : pathOrNever.isComplete := by decide
  have hl : pathOrNever.isLaidOut := by decide
  exact ⟨hc, hl, ofJsonText_toJsonText hc hl true⟩

end RuleTables.Expr
