import RuleTables.Expr.Tree
import RuleTables.Proofs.Shape

namespace RuleTables

theorem Operator.ofName?_name (op : Operator) : ofName? op.name = some op := by
  cases op <;> decide

theorem Connective.ofSymbol?_name (c : Connective) : ofSymbol? c.name = some (some c) := by
  cases c <;> decide

theorem Kind.ofTypeRef_typeRef (k : Kind) : ofTypeRef k.typeRef = k := by
  cases k <;> decide

theorem Condition.kindOf_typeRef (k : Kind) : kindOf (some k.typeRef) = some k := by
  have he : k.typeRef.isEmpty = false := by cases k <;> rfl
  rw [kindOf, he, Kind.ofTypeRef_typeRef]
  rfl

namespace Expr

mutual

/-- The expressions that an expression is made of, from left to right, each after its own parts. -/
def parts : Expr → List Expr
  | condition c => [condition c]
  | composite ns => nodeParts ns ++ [composite ns]
  | group e => parts e ++ [group e]
  | constant b label => [constant b label]
  | foreign v => [foreign v]

def nodeParts : List (Node Expr) → List Expr
  | [] => []
  | ⟨_, e⟩ :: ns => parts e ++ nodeParts ns

end

/-- A first node without a connective, and later ones that all have one. -/
def AreJoined (ns : List (Node Expr)) : Prop :=
  ∃ n ms, ns = n :: ms ∧ n.connective = none ∧ ∀ m ∈ ms, m.connective.isSome

/-- What strict reading says of a composite by itself. -/
def strictFault? : Expr → Option TreeFault
  | composite ns => (layoutFault? ns).map (.layout · (composite ns).tree)
  | _ => none

/-- The fault of the first expression that reading stops at, if any. -/
def firstFault? (strict : Bool) (es : List Expr) : Option TreeFault :=
  if strict then es.findSome? strictFault? else none

theorem firstFault?_append (strict : Bool) (es fs : List Expr) :
    firstFault? strict (es ++ fs) = (firstFault? strict es).or (firstFault? strict fs) := by
  cases strict with
  | false => rfl
  | true => exact List.findSome?_append

def unlessFault {α : Type} (fault : Option TreeFault) (value : α) : Except TreeFault α :=
  fault.elim (.ok value) .error

theorem unlessFault_bind {α β : Type} {fault later : Option TreeFault} {x : α} {y : β}
    {f : α → Except TreeFault β} (h : f x = unlessFault later y) :
    unlessFault fault x >>= f = unlessFault (fault.or later) y := by
  cases fault with
  | none => exact h
  | some t => rfl

section Reading

variable {e : Expr} {ns : List (Node Expr)}

theorem ofTree_condition (strict : Bool) {c : Condition} (h : c.operator.isSome) :
    ofTree strict (condition c).tree = .ok (condition c) := by
  obtain ⟨parameter, operator, value, kind, grouped⟩ := c
  obtain ⟨op, rfl⟩ := Option.isSome_iff_exists.mp h
  simp [tree, Condition.tree, ofTree, Condition.ofTree, textField?, Assoc.find?,
    Condition.operatorOf, Condition.valueOf, Operator.ofName?_name, Condition.kindOf_typeRef,
    Condition.of, bind, Except.bind, pure, Except.pure, Except.map]

theorem connectiveOfTree_connectiveTree (whole tree : Json) (c : Option Connective) :
    connectiveOfTree whole [("connective", connectiveTree c), ("expression", tree)] = .ok c := by
  cases c with
  | none => rfl
  | some c =>
    simp [connectiveOfTree, connectiveTree, textField?, Assoc.find?, Connective.ofSymbol?_name,
      bind, Except.bind, pure, Except.pure]

theorem compositeOfTree_eq (strict : Bool) (ns : List (Node Expr)) :
    compositeOfTree strict (composite ns).tree ns =
      unlessFault (firstFault? strict [composite ns]) (composite ns) := by
  cases strict with
  | false => rfl
  | true =>
    rw [firstFault?, if_pos rfl, List.findSome?_singleton, strictFault?]
    cases hf : layoutFault? ns <;> simp [compositeOfTree, unlessFault, hf]

theorem nodesOfEntries_nodeTrees (strict : Bool) (whole : Json)
    (h : ∀ n ∈ ns, ofTree strict n.child.tree =
      unlessFault (firstFault? strict n.child.parts) n.child) :
    nodesOfEntries strict whole (nodeTrees ns) =
      unlessFault (firstFault? strict (nodeParts ns)) ns := by
  induction ns with
  | nil =>
    rw [nodeTrees, nodesOfEntries]
    cases strict <;> rfl
  | cons n ns ih =>
    obtain ⟨c, e⟩ := n
    have hc : childIn strict (.absent "composite" "expression" whole)
        [("connective", connectiveTree c), ("expression", e.tree)] = ofTree strict e.tree := by
      simp [childIn]
    have hn : nodeOfTree strict whole
        (.object [("connective", connectiveTree c), ("expression", e.tree)]) =
          unlessFault (firstFault? strict e.parts) ⟨c, e⟩ := by
      rw [nodeOfTree, connectiveOfTree_connectiveTree, hc, h _ List.mem_cons_self]
      cases firstFault? strict e.parts <;> rfl
    rw [nodeTrees, nodesOfEntries, hn, ih fun m hm => h m (List.mem_cons_of_mem _ hm), nodeParts,
      firstFault?_append]
    refine unlessFault_bind ?_
    cases firstFault? strict (nodeParts ns) <;> rfl

theorem ofTree_tree (strict : Bool) (h : e.isComplete) :
    ofTree strict e.tree = unlessFault (firstFault? strict e.parts) e := by
  induction e with
  | condition c =>
    rw [ofTree_condition strict h]
    cases strict <;> rfl
  | composite ns ih =>
    have hr : ofTree strict (composite ns).tree =
        nodesOfEntries strict (composite ns).tree (nodeTrees ns) >>=
          compositeOfTree strict (composite ns).tree := by
      simp [tree, ofTree, nodesIn, nodesOfTree, Assoc.find?]
    -- the children are read before the composite is put together, so their faults come first
    rw [hr, nodesOfEntries_nodeTrees strict _ fun n hn => ih n hn (isComplete_composite.mp h n hn),
      parts, firstFault?_append]
    exact unlessFault_bind (compositeOfTree_eq strict ns)
  | group e ih =>
    have hr : ofTree strict (group e).tree = (ofTree strict e.tree).map group := by
      simp [tree, ofTree, childIn, Assoc.find?]
    have hg : firstFault? strict [group e] = none := by cases strict <;> rfl
    rw [hr, ih (isComplete_group.mp h), parts, firstFault?_append, hg, Option.or_none]
    cases firstFault? strict e.parts <;> rfl
  | constant b label =>
    have hr : ofTree strict (constant b label).tree = .ok (constant b label) := by
      simp [tree, ofTree, constantOfTree, textField?, constantOf, Assoc.find?, bind, Except.bind,
        pure, Except.pure]
    rw [hr]
    cases strict <;> rfl
  | foreign v => cases h

theorem strictFault?_eq_none_iff :
    strictFault? e = none ↔ ∀ ns, e = composite ns → AreJoined ns := by
  cases e with
  | composite ns =>
    rw [strictFault?, Option.map_eq_none_iff, layoutFault?_eq_none_iff]
    exact ⟨fun h ms hm => composite.inj hm ▸ h, fun h => h ns rfl⟩
  | condition _ | group _ | constant _ _ | foreign _ => exact iff_of_true rfl nofun

theorem exists_of_strictFault?_eq_some {t : TreeFault} (h : strictFault? e = some t) :
    ∃ ns f, e = composite ns ∧ composite? ns = .error f ∧ t = .layout f (composite ns).tree := by
  cases e with
  | composite ns =>
    obtain ⟨f, hf, rfl⟩ := Option.map_eq_some_iff.mp h
    exact ⟨ns, f, rfl, by rw [composite?, hf], rfl⟩
  | condition _ | group _ | constant _ _ | foreign _ => cases h

theorem read_tree (strict : Bool) (h : e.isComplete) :
    read strict e.tree = (unlessFault (firstFault? strict e.parts) e).mapError .tree := by
  rw [read, ofTree_tree strict h]

theorem firstFault?_eq_none_iff (es : List Expr) :
    firstFault? true es = none ↔ ∀ ns, composite ns ∈ es → AreJoined ns := by
  rw [firstFault?, if_pos rfl, List.findSome?_eq_none_iff]
  constructor
  · exact fun h ns hm => strictFault?_eq_none_iff.mp (h _ hm) ns rfl
  · rintro h x hx
    exact strictFault?_eq_none_iff.mpr fun ns hn => h ns (hn ▸ hx)

/-- An expression comes back from its tree in every field. Strict reading gives it back just when
the nodes of all its composites are joined properly, and else reports what is wrong with the first
composite where they are not. -/
theorem read_toTree (h : e.isComplete) :
    e.toTree = .ok e.tree ∧ read false e.tree = .ok e ∧
    (read true e.tree = .ok e ↔ ∀ ns, composite ns ∈ e.parts → AreJoined ns) ∧
    (read true e.tree ≠ .ok e → ∃ before ns after f fault,
      e.parts = before ++ composite ns :: after ∧ (∀ ms, composite ms ∈ before → AreJoined ms) ∧
      composite? ns = .error f ∧ read true e.tree = .error fault ∧
      fault.kind = .validation ∧ fault.message = f.message ∧
      fault.details = [("node", (composite ns).tree)]) := by
  have hs := read_tree true h
  refine ⟨?_, ?_, ?_, ?_⟩
  · rw [toTree, obstacle?_eq_none h]
    rfl
  · rw [read_tree false h]
    rfl
  · rw [← firstFault?_eq_none_iff, hs]
    cases firstFault? true e.parts with
    | none => exact iff_of_true rfl rfl
    | some t => exact iff_of_false nofun nofun
  · intro hn
    obtain ⟨t, ht⟩ : ∃ t, firstFault? true e.parts = some t := by
      refine Option.ne_none_iff_exists'.mp fun hf => hn ?_
      rw [hs, hf]
      rfl
    obtain ⟨before, x, after, hp, hx, hb⟩ := List.findSome?_eq_some_iff.mp ht
    obtain ⟨ns, f, rfl, hc, rfl⟩ := exists_of_strictFault?_eq_some hx
    refine ⟨before, ns, after, f, .tree (.layout f (composite ns).tree), hp, fun ms hm => ?_, hc,
      ?_, rfl, rfl, rfl⟩
    · exact strictFault?_eq_none_iff.mp (hb _ hm) ms rfl
    · rw [hs, ht]
      rfl

end Reading

def emptyThenBare : Expr :=
  composite [⟨none, group (composite [])⟩, ⟨none, condition (.equals "class" "vip")⟩]

/-- The inner fault is the one that is reported. -/
theorem emptyThenBare_comes_back : emptyThenBare.isComplete ∧
    read false emptyThenBare.tree = .ok emptyThenBare ∧
    ∃ fault, read true emptyThenBare.tree = .error fault ∧
      fault.message = "Composite expression is empty" := by
  have hc : emptyThenBare.isComplete := by decide
  have hp : emptyThenBare.parts = [composite [], group (composite []),
      condition (.equals "class" "vip"), emptyThenBare] := rfl
  have hj : ¬ AreJoined [] := by simp [AreJoined]
  obtain ⟨-, hl, hs, he⟩ := read_toTree hc
  have hn : read true emptyThenBare.tree ≠ .ok emptyThenBare := fun h =>
    hj (hs.mp h [] (by simp [hp]))
  obtain ⟨before, ns, after, f, fault, hb, ha, hf, hr, -, hm, -⟩ := he hn
  refine ⟨hc, hl, fault, hr, ?_⟩
  rw [hp] at hb
  cases before with
  | nil =>
    obtain ⟨rfl, -⟩ : [] = ns ∧ _ := by simpa using hb
    cases hf
    exact hm
  | cons x xs =>
    rw [List.cons_append, List.cons.injEq] at hb
    exact absurd (ha [] (by simp [← hb.1])) hj

end Expr

end RuleTables
