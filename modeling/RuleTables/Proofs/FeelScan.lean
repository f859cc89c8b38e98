import RuleTables.Proofs.FeelText

namespace RuleTables

/-- The truth of what is printed for a condition, read by itself. -/
def Condition.alone (w : Condition → Bool) (c : Condition) : Bool :=
  (Expr.composite c.chain).eval w

/-- A test for emptiness that is printed without parentheses. -/
def Node.isOpen (n : Node Expr) : Bool :=
  match n.child with
  | .condition c => c.operator = some .isEmpty && !c.grouped
  | _ => false

/-- No test for emptiness without parentheses is joined by `and` to a node beside it. -/
def Node.AreWhole (ns : List (Node Expr)) : Prop :=
  ns.IsChain fun n m => m.connective = some .or ∨ n.isOpen = false ∧ m.isOpen = false

namespace Inline.Scan

variable {w : Condition → Bool} {n : Node Expr} {ns : List (Node Expr)} {c : Condition} {s t : Scan}

def nodes (w : Condition → Bool) (s : Scan) (ns : List (Node Expr)) : Scan :=
  (Expr.evalNodes w ns).foldl take s

theorem nodes_cons (w : Condition → Bool) (s : Scan) (n : Node Expr) (ns : List (Node Expr)) :
    nodes w s (n :: ns) = nodes w (s.take ⟨n.connective, n.child.eval w⟩) ns :=
  rfl

theorem nodes_append (w : Condition → Bool) (s : Scan) (ns ms : List (Node Expr)) :
    nodes w s (ns ++ ms) = nodes w (nodes w s ns) ms := by
  rw [nodes, Expr.evalNodes_append, List.foldl_append]
  rfl

theorem nodes_printed_cons (w : Condition → Bool) (s : Scan) (n : Node Expr)
    (ns : List (Node Expr)) : nodes w s ((n :: ns).flatMap Node.spread) =
      nodes w (nodes w s n.spread) (ns.flatMap Node.spread) := by
  rw [List.flatMap_cons, nodes_append]

theorem nodes_printed_append (w : Condition → Bool) (s : Scan) (ns ms : List (Node Expr)) :
    nodes w s ((ns ++ ms).flatMap Node.spread) =
      nodes w (nodes w s (ns.flatMap Node.spread)) (ms.flatMap Node.spread) := by
  rw [List.flatMap_append, nodes_append]

theorem eval_eq_nodes (w : Condition → Bool) (hl : Expr.layoutFault? ns = none) :
    (Expr.composite ns).eval w = (nodes w start ns).value := by
  obtain ⟨n, ns, rfl, hn, -⟩ := Expr.layoutFault?_eq_none_iff.mp hl
  rw [Expr.eval_eq_value, nodes_cons, take_and (by simp [hn])]
  rfl

theorem take_operand (s : Scan) (x : Option Connective) (a b : Bool) :
    (s.take ⟨x, a⟩).operand b = s.take ⟨x, a && b⟩ := by
  by_cases h : x = some .or
  · rw [take_or h, take_or h, operand]
  · rw [take_and h, take_and h, operand_operand]

theorem nodes_spread_of_not_isOpen (hn : n.child = .condition c) (ho : n.isOpen = false)
    (s : Scan) : nodes w s n.spread = s.take ⟨n.connective, c.alone w⟩ := by
  obtain ⟨conn, e⟩ := n
  obtain rfl : e = .condition c := hn
  rw [Node.spread]
  dsimp only
  split
  · rfl
  · next hg =>
    have hop : c.operator ≠ some .isEmpty := by
      intro h
      rw [Bool.not_eq_true] at hg
      simp [Node.isOpen, h, hg] at ho
    rw [Condition.alone, Condition.chain]
    split
    · next h => exact absurd h hop
    · rw [Expr.eval_eq_value]
      exact (take_operand s conn _ _).trans
        (by simp [Expr.evalNodes, Expr.eval, take, operand, value])
    · rw [Expr.eval_eq_value]
      simp [nodes, Expr.evalNodes, value, Expr.eval]

theorem evalNodes_spread_of_isOpen (hn : n.child = .condition c) (ho : n.isOpen) :
    Expr.evalNodes w n.spread =
      [⟨n.connective, w (c.comparison .isNull)⟩, ⟨some .or, w (c.comparison .equals)⟩] ∧
    c.alone w = (w (c.comparison .isNull) || w (c.comparison .equals)) := by
  obtain ⟨conn, e⟩ := n
  obtain rfl : e = .condition c := hn
  rw [Node.isOpen, Bool.and_eq_true, decide_eq_true_eq, Bool.not_eq_true'] at ho
  obtain ⟨hop, hg⟩ := ho
  have hch : c.chain = [⟨none, .condition (c.comparison .isNull)⟩,
      ⟨some .or, .condition (c.comparison .equals)⟩] := by rw [Condition.chain, hop]
  constructor
  · rw [Node.spread]
    dsimp only
    rw [hg, if_neg Bool.false_ne_true, hch]
    rfl
  · rw [Condition.alone, hch, Expr.eval_eq_value]
    simp [Expr.evalNodes, Expr.eval, take, value]

theorem nodes_spread_of_isOpen (hn : n.child = .condition c) (ho : n.isOpen) (s : Scan) :
    nodes w s n.spread =
      ⟨(s.take ⟨n.connective, w (c.comparison .isNull)⟩).value, w (c.comparison .equals)⟩ := by
  rw [nodes, (evalNodes_spread_of_isOpen hn ho).1, List.foldl_cons, List.foldl_cons, List.foldl_nil,
    take_or rfl]

theorem value_iff : s.value ↔ s.found ∨ s.current :=
  Bool.or_eq_true _ _ ▸ Iff.rfl

/-- What one scan has found the other has found too, and what it can still find. -/
structure Le (s t : Scan) : Prop where
  found : s.found → t.found
  value : s.value → t.value

theorem Le.take (h : Le s t) (m : Node Bool) : Le (s.take m) (t.take m) := by
  by_cases ho : m.connective = some .or
  · rw [take_or ho, take_or ho]
    exact ⟨h.value, fun hv => value_iff.mpr ((value_iff.mp hv).imp_left h.value)⟩
  · rw [take_and ho, take_and ho]
    refine ⟨h.found, fun hv => value_iff.mpr ?_⟩
    rcases value_iff.mp hv with hf | hc
    · exact .inl (h.found hf)
    · obtain ⟨hs, hm⟩ := (Bool.and_eq_true _ _).mp hc
      have ht := value_iff.mp (h.value (value_iff.mpr (.inr hs)))
      exact ht.imp_right fun ht => (Bool.and_eq_true _ _).mpr ⟨ht, hm⟩

theorem found_take_eq (s : Scan) (x : Option Connective) (a b : Bool) :
    (s.take ⟨x, a⟩).found = (s.take ⟨x, b⟩).found := by
  by_cases h : x = some .or
  · rw [take_or h, take_or h]
  · rw [take_and h, take_and h]
    rfl

theorem Le.spread (h : Le s t) (hn : n.child = .condition c) :
    Le (s.take ⟨n.connective, c.alone w⟩) (nodes w t n.spread) := by
  cases ho : n.isOpen with
  | false =>
    rw [nodes_spread_of_not_isOpen hn ho]
    exact h.take _
  | true =>
    rw [nodes_spread_of_isOpen hn ho, (evalNodes_spread_of_isOpen hn ho).2]
    have hl := h.take ⟨n.connective, w (c.comparison .isNull)⟩
    refine ⟨fun hf => value_of_found (hl.found ?_), fun hv => value_iff.mpr ?_⟩
    · rwa [found_take_eq] at hf
    -- If the second comparison holds it is all that is left to the scan, else the first decides.
    · cases hb : w (c.comparison .equals) with
      | true => exact .inr rfl
      | false =>
        rw [hb, Bool.or_false] at hv
        exact .inl (hl.value hv)

theorem Le.nodes (hf : Expr.areConditions ns) (h : Le s t) :
    Le (nodes (Condition.alone w) s ns) (nodes w t (ns.flatMap Node.spread)) := by
  induction ns generalizing s t with
  | nil => exact h
  | cons n ns ih =>
    obtain ⟨c, hc⟩ := Expr.exists_condition hf List.mem_cons_self
    rw [nodes_cons, nodes_printed_cons, hc]
    exact ih (Expr.areConditions_mono hf (List.subset_cons_self n ns)) (h.spread hc)

theorem take_spread (hn : n.child = .condition c) (hv : s.value = t.value)
    (hj : n.connective = some .or ∨ s = t ∧ (n.isOpen = false ∨ s = start)) :
    (s.take ⟨n.connective, c.alone w⟩).value = (nodes w t n.spread).value ∧
      (n.isOpen = false → s.take ⟨n.connective, c.alone w⟩ = nodes w t n.spread) := by
  cases ho : n.isOpen with
  | false =>
    have he : s.take ⟨n.connective, c.alone w⟩ = nodes w t n.spread := by
      rw [nodes_spread_of_not_isOpen hn ho]
      rcases hj with hj | ⟨rfl, -⟩
      · rw [take_or hj, take_or hj, hv]
      · rfl
    exact ⟨congrArg value he, fun _ => he⟩
  | true =>
    refine ⟨?_, nofun⟩
    rw [nodes_spread_of_isOpen hn ho, (evalNodes_spread_of_isOpen hn ho).2]
    rcases hj with hj | ⟨rfl, hj | rfl⟩
    · rw [take_or hj, take_or hj, hv]
      simp [value, Bool.or_assoc]
    · simp [ho] at hj
    · by_cases hor : n.connective = some .or
      · rw [take_or hor, take_or hor]
        simp [value, Bool.or_assoc]
      · rw [take_and hor, take_and hor]
        simp [value, operand, start]

/-- As long as nothing is torn apart by `and` the scans come to the same value: either they are the
same, or the last node was a test for emptiness and an `or` follows. -/
theorem value_nodes_printed (hf : Expr.areConditions (n :: ns)) (hw : Node.AreWhole (n :: ns))
    (hv : s.value = t.value) (hs : n.isOpen = false → s = t) :
    (nodes (Condition.alone w) s ns).value = (nodes w t (ns.flatMap Node.spread)).value := by
  induction ns generalizing n s t with
  | nil => exact hv
  | cons m ns ih =>
    have hms : Expr.areConditions (m :: ns) :=
      Expr.areConditions_mono hf (List.subset_cons_self n _)
    obtain ⟨c, hc⟩ := Expr.exists_condition hms List.mem_cons_self
    obtain ⟨hj, hw⟩ := List.isChain_cons_cons.mp hw
    obtain ⟨hv, hs⟩ := take_spread (w := w) hc hv (hj.imp_right fun h => ⟨hs h.1, .inl h.2⟩)
    rw [nodes_cons, nodes_printed_cons, hc]
    exact ih hms hw hv hs

def lost : Scan := ⟨false, false⟩

theorem nodes_lost (h : ∀ k ∈ ns, k.connective = some .or → k.child.eval w = false) :
    nodes w lost ns = lost := by
  induction ns with
  | nil => rfl
  | cons n ns ih =>
    obtain ⟨hn, hs⟩ := List.forall_mem_cons.mp h
    have ht : lost.take ⟨n.connective, n.child.eval w⟩ = lost := by
      by_cases ho : n.connective = some .or
      · rw [take_or ho, hn ho]
        rfl
      · rw [take_and ho]
        rfl
    rw [nodes_cons, ht, ih hs]

theorem value_nodes_of_true (h : s.value) (hn : ∀ k ∈ ns, k.child.eval w = true) :
    (nodes w s ns).value :=
  value_foldl_take_of_true h fun _ hk => Expr.child_of_mem_evalNodes hn hk

theorem value_nodes_of_or (h : s.value) (hn : ∀ k ∈ ns.head?, k.connective = some .or) :
    (nodes w s ns).value := by
  cases ns with
  | nil => exact h
  | cons n ns =>
    rw [nodes_cons, take_or (hn n rfl)]
    exact value_of_found (found_foldl_take h)

end Inline.Scan

namespace Expr

variable {n : Node Expr} {ns : List (Node Expr)}

open Inline Inline.Scan

theorem eval_printed (w : Condition → Bool) (hl : layoutFault? ns = none) :
    (printed ns).eval w = (nodes w start (ns.flatMap Node.spread)).value :=
  eval_eq_nodes w (layoutFault?_spread hl)

theorem eval_printed_of_eval (w : Condition → Bool) (hl : layoutFault? ns = none)
    (hf : areConditions ns) (h : (composite ns).eval (Condition.alone w)) :
    (printed ns).eval w := by
  rw [eval_eq_nodes _ hl] at h
  rw [eval_printed w hl]
  exact (Le.nodes hf ⟨id, id⟩).value h

theorem eval_printed_of_areWhole (w : Condition → Bool) (hl : layoutFault? ns = none)
    (hf : areConditions ns) (hw : Node.AreWhole ns) :
    (printed ns).eval w = (composite ns).eval (Condition.alone w) := by
  rw [eval_eq_nodes _ hl, eval_printed w hl]
  obtain ⟨n, ns, rfl, hn, -⟩ := layoutFault?_eq_none_iff.mp hl
  obtain ⟨c, hc⟩ := exists_condition hf List.mem_cons_self
  obtain ⟨hv, hs⟩ := take_spread (w := w) hc rfl (.inr ⟨rfl, .inr rfl⟩)
  rw [nodes_cons, nodes_printed_cons, hc]
  exact (value_nodes_printed hf hw hv hs).symm

end Expr

end RuleTables
