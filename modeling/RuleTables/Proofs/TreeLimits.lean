import RuleTables.Expr.Outline
import RuleTables.Proofs.TreeReading
import RuleTables.Proofs.TreeRoundTrip

namespace RuleTables

namespace Outline

theorem childIn_eq (ms : Json.Members) :
    childIn ms = (Assoc.find? "expression" ms).elim [] ofJson := by
  induction ms with
  | nil => rw [childIn]; rfl
  | cons m ms ih =>
    rw [childIn, Assoc.find?]
    split
    · rfl
    · exact ih

theorem nodesIn_eq (ms : Json.Members) :
    nodesIn ms = (Assoc.find? "nodes" ms).elim [] ofNodes := by
  induction ms with
  | nil => rw [nodesIn]; rfl
  | cons m ms ih =>
    rw [nodesIn, Assoc.find?]
    split
    · rfl
    · exact ih

theorem height_node_cons (o : Outline) (os : List Outline) :
    (node (o :: os)).height = max (o.height + 1) (node os).height := by
  cases os with
  | nil => simp [height, heights]
  | cons p os => simp [height, heights]

end Outline

namespace Expr

open Outline (node heights sizes)

mutual

/-- The number of groups and composites around the expression in it that has the most of them. -/
def height : Expr → Nat
  | condition _ => 0
  | composite ns => nodesHeight ns
  | group e => height e + 1
  | constant _ _ => 0
  | foreign _ => 0

def nodesHeight : List (Node Expr) → Nat
  | [] => 0
  | ⟨_, e⟩ :: ns => max (height e + 1) (nodesHeight ns)

end

/-- The outline is as high as the expression, and has a node for each of its parts. -/
structure IsOutlined (o : Outline) (e : Expr) : Prop where
  height : o.height = e.height
  size : o.size = e.parts.length

variable {strict : Bool} {v : Json} {e : Expr}

theorem isOutlined_leaf (hh : e.height = 0) (hs : e.parts.length = 1) : IsOutlined (node []) e :=
  ⟨hh.symm, hs.symm⟩

theorem ofEntries_of_forall₂ {entries : List Json} {ns : List (Node Expr)}
    (each : List.Forall₂ (IsEntry strict) ns entries)
    (ih : ∀ n ∈ ns, ∀ w, ofTree strict w = .ok n.child →
      ∃ o, Outline.ofJson w = [o] ∧ IsOutlined o n.child) :
    (node (Outline.ofEntries entries)).height = nodesHeight ns ∧
      sizes (Outline.ofEntries entries) = (nodeParts ns).length := by
  induction each with
  | nil => exact ⟨rfl, rfl⟩
  | @cons n entry ns entries hn each ihs =>
    obtain ⟨hi, his⟩ := List.forall_mem_cons.mp ih
    obtain ⟨hh, hs⟩ := ihs his
    obtain ⟨ms, w, rfl, hw, hr⟩ := hn
    obtain ⟨o, ho, hm⟩ := hi w hr
    have hf : Outline.ofEntries (.object ms :: entries) = o :: Outline.ofEntries entries := by
      rw [Outline.ofEntries, Outline.ofEntry, Outline.childIn_eq, hw, Option.elim_some, ho]
      rfl
    rw [hf, Outline.height_node_cons, sizes, hh, hs, hm.height, hm.size, nodesHeight, nodeParts,
      List.length_append]
    exact ⟨rfl, rfl⟩

theorem isOutlined_of_ofTree (h : ofTree strict v = .ok e) :
    ∃ o, Outline.ofJson v = [o] ∧ IsOutlined o e := by
  induction e generalizing v with
  | condition c =>
    cases isReading_of_ofTree h with
    | condition type _ =>
      rw [Outline.ofJson, type]
      exact ⟨node [], rfl, isOutlined_leaf rfl rfl⟩
  | composite ns ih =>
    cases isReading_of_ofTree h with
    | @composite ms entries _ type nodes each =>
      obtain ⟨hh, hs⟩ := ofEntries_of_forall₂ each fun n hn w hw => ih n hn hw
      rw [Outline.ofJson, type]
      refine ⟨node (Outline.ofEntries entries), ?_, ?_, ?_⟩
      · simp only [Outline.nodesIn_eq, nodes, Option.elim_some, Outline.ofNodes]
      · exact hh
      · rw [Outline.size, hs, parts, List.length_append, List.length_singleton]
  | group e ih =>
    cases isReading_of_ofTree h with
    | @group ms w _ type child read =>
      obtain ⟨o, ho, hm⟩ := ih read
      rw [Outline.ofJson, type]
      refine ⟨node [o], ?_, ?_, ?_⟩
      · simp only [Outline.childIn_eq, child, Option.elim_some, ho]
      · simp [Outline.height, heights, hm.height, height]
      · simp [Outline.size, sizes, hm.size, parts]
  | constant b label =>
    cases isReading_of_ofTree h with
    | constant type =>
      rw [Outline.ofJson, type]
      exact ⟨node [], rfl, isOutlined_leaf rfl rfl⟩
  | foreign w => cases isReading_of_ofTree h

end Expr

namespace Outline

variable {ms : Json.Members} {e : Expr}

theorem isOutlined_of_read (h : Expr.read false (.object ms) = .ok e) :
    heights (ofJson (.object ms)) = e.height ∧ sizes (ofJson (.object ms)) = e.parts.length := by
  obtain ⟨o, ho, hm⟩ := Expr.isOutlined_of_ofTree (mapError_eq_ok_iff.mp h)
  rw [ho, ← hm.height, ← hm.size]
  exact ⟨Nat.max_zero _, rfl⟩

theorem depthFault?_object (ms : Json.Members) (limit : Int) :
    depthFault? (.object ms) limit =
      if limit < heights (ofJson (.object ms)) then some (.tooDeep limit) else none := by
  rw [depthFault?]
  rfl

theorem sizeFault?_object (ms : Json.Members) (limit : Int) :
    sizeFault? (.object ms) limit = if limit < sizes (ofJson (.object ms)) then
      some (.tooManyNodes limit (sizes (ofJson (.object ms)))) else none := by
  rw [sizeFault?]
  rfl

/-- Where an object is read as an expression, it is refused for its depth just if the expression is
higher than the limit, and for its size just if the expression has more parts than the limit, whose
number is then told. An object that is not read may be refused as well, but with no other cause. -/
theorem limits_of_read (ms : Json.Members) (limit : Int) :
    (∀ e, Expr.read false (.object ms) = .ok e →
      ((depthFault? (.object ms) limit).isSome ↔ limit < e.height) ∧
      ((sizeFault? (.object ms) limit).isSome ↔ limit < e.parts.length) ∧
      ∀ f, sizeFault? (.object ms) limit = some f →
        f.message = "Expression tree exceeds maximum node count of " ++ toString limit ++
          " (got " ++ toString e.parts.length ++ " nodes)") ∧
    ∀ f, depthFault? (.object ms) limit = some f ∨ sizeFault? (.object ms) limit = some f →
      f.kind = .value := by
  rw [depthFault?_object, sizeFault?_object]
  refine ⟨fun e he => ?_, ?_⟩
  · obtain ⟨hh, hs⟩ := isOutlined_of_read he
    rw [hh, hs]
    refine ⟨by simp, by simp, fun f hf => ?_⟩
    obtain ⟨-, hm⟩ := Option.ite_none_right_eq_some.mp hf
    cases hm
    rfl
  · rintro f (hf | hf)
    all_goals
      obtain ⟨-, hm⟩ := Option.ite_none_right_eq_some.mp hf
      cases hm
      rfl

def amountOrGrouped : Expr :=
  .composite [⟨none, .condition (.greaterThan "amount" "500")⟩,
    ⟨some .or, .group (.composite [])⟩]

theorem amountOrGrouped_refused : ∃ ms, amountOrGrouped.tree = .object ms ∧
    Expr.read false (.object ms) = .ok amountOrGrouped ∧ (depthFault? (.object ms) 1).isSome ∧
    ∃ f, sizeFault? (.object ms) 3 = some f ∧
      f.message = "Expression tree exceeds maximum node count of 3 (got 4 nodes)" := by
  obtain ⟨ms, ht⟩ : ∃ ms, amountOrGrouped.tree = .object ms := ⟨_, rfl⟩
  have hr : Expr.read false (.object ms) = .ok amountOrGrouped :=
    ht ▸ Expr.read_tree false (e := amountOrGrouped) (by decide)
  obtain ⟨hd, -, -⟩ := (limits_of_read ms 1).1 _ hr
  obtain ⟨-, hs, hm⟩ := (limits_of_read ms 3).1 _ hr
  obtain ⟨f, hf⟩ := Option.isSome_iff_exists.mp (hs.mpr (by decide))
  exact ⟨ms, ht, hr, hd.mpr (by decide), f, hf, hm f hf⟩

end Outline

end RuleTables
