import RuleTables.Proofs.RowMeaning
import RuleTables.Proofs.TokenReading

namespace RuleTables

namespace Node

def apply (b : Bool) (n : Node Bool) : Bool :=
  if n.connective = some .or then b || n.child else b && n.child

/-- The truth of nodes that are evaluated from left to right. -/
def leftToRight : List (Node Bool) → Bool
  | [] => true
  | n :: ns => ns.foldl apply n.child

/-- No `and` comes after an `or`. -/
def OrsLast {α : Type} (ns : List (Node α)) : Prop :=
  ns.Pairwise fun n m => n.connective = some .or → m.connective = some .or

instance {α : Type} (ns : List (Node α)) : Decidable (OrsLast ns) :=
  inferInstanceAs (Decidable (List.Pairwise _ ns))

end Node

namespace Inline.Scan

/-- An `or` ends the conjunction before it. -/
def take (s : Scan) (n : Node Bool) : Scan :=
  if n.connective = some .or then ⟨s.value, n.child⟩ else s.operand n.child

variable {s : Scan} {n : Node Bool} {ns : List (Node Bool)} {b : Bool}

theorem take_or (h : n.connective = some .or) : s.take n = ⟨s.value, n.child⟩ :=
  if_pos h

theorem take_and (h : n.connective ≠ some .or) : s.take n = s.operand n.child :=
  if_neg h

theorem value_foldl_take {k : Node Bool} {r : List (Node Bool)} {rs : List (List (Node Bool))}
    (h : Node.runs (k :: ns) = (k :: r) :: rs) (s : Scan) : (ns.foldl take s).value =
      (s.found || s.current && r.all (·.child) || rs.any (·.all (·.child))) := by
  induction ns generalizing k r rs s with
  | nil =>
    obtain ⟨hr, rfl⟩ := List.cons.inj h
    obtain rfl := (List.cons.inj hr).2
    simp [value]
  | cons m ns ih =>
    obtain ⟨t, ts, ht⟩ := Node.runs_cons m ns
    by_cases ho : m.connective = some .or
    · rw [Node.runs_or k m ns ho, ht] at h
      obtain ⟨hr, rfl⟩ := List.cons.inj h
      obtain rfl := (List.cons.inj hr).2
      rw [List.foldl_cons, ih ht, take_or ho]
      simp [value, Bool.or_assoc]
    · rw [Node.runs_and k m ns ho, ht] at h
      obtain ⟨hr, rfl⟩ := List.cons.inj h
      obtain rfl := (List.cons.inj hr).2
      rw [List.foldl_cons, ih ht, take_and ho]
      simp [operand, Bool.and_assoc]

theorem value_take (h : b → s.value) (hb : Node.apply b n) : (s.take n).value := by
  by_cases ho : n.connective = some .or
  · rw [Node.apply, if_pos ho, Bool.or_eq_true] at hb
    rw [take_or ho, value, Bool.or_eq_true]
    exact hb.imp_left h
  · rw [Node.apply, if_neg ho, Bool.and_eq_true] at hb
    have hs := h hb.1
    rw [value, Bool.or_eq_true] at hs
    rw [take_and ho, operand, value, Bool.or_eq_true, Bool.and_eq_true]
    exact hs.imp_right fun hc => ⟨hc, hb.2⟩

theorem value_of_foldl_apply (h : b → s.value) (hb : ns.foldl Node.apply b = true) :
    (ns.foldl take s).value := by
  induction ns generalizing b s with
  | nil => exact h hb
  | cons n ns ih => exact ih (value_take h) hb

theorem foldl_apply_eq_value (ho : Node.OrsLast ns)
    (hs : s.found → ∀ n ∈ ns, n.connective = some .or) :
    ns.foldl Node.apply s.value = (ns.foldl take s).value := by
  -- once a finished conjunction is true there is no `and` to come, so nothing is taken back
  induction ns generalizing s with
  | nil => rfl
  | cons n ns ih =>
    obtain ⟨hn, ho⟩ := List.pairwise_cons.mp ho
    rw [List.foldl_cons, List.foldl_cons]
    by_cases hc : n.connective = some .or
    · rw [take_or hc, ← ih ho fun _ => fun m hm => hn m hm hc, Node.apply, if_pos hc]
      rfl
    · have hf : s.found = false := by
        rw [← Bool.not_eq_true]
        exact fun h => hc (hs h n List.mem_cons_self)
      have hk : (s.operand n.child).found → ∀ m ∈ ns, m.connective = some .or := fun h =>
        absurd (hf ▸ h) Bool.false_ne_true
      rw [take_and hc, ← ih ho hk, Node.apply, if_neg hc]
      simp [value, operand, hf]

theorem found_take (h : s.found) : (s.take n).found := by
  by_cases ho : n.connective = some .or
  · simp [take_or ho, value, h]
  · simp [take_and ho, operand, h]

theorem value_of_found (h : s.found) : s.value := by
  rw [value, h, Bool.true_or]

theorem found_foldl_take (h : s.found) : (ns.foldl take s).found := by
  induction ns generalizing s with
  | nil => exact h
  | cons n ns ih => exact ih (found_take h)

theorem value_foldl_take_of_true (h : s.value) (hn : ∀ n ∈ ns, n.child = true) :
    (ns.foldl take s).value := by
  induction ns generalizing s with
  | nil => exact h
  | cons n ns ih =>
    obtain ⟨hn, hs⟩ := List.forall_mem_cons.mp hn
    refine ih ?_ hs
    by_cases ho : n.connective = some .or
    · simp [take_or ho, value, hn]
    · simpa [take_and ho, operand, value, hn] using h

theorem found_of_or {as bs : List (Node Bool)} (h : s.value) (ha : ∀ m ∈ as, m.child = true)
    (ho : n.connective = some .or) : ((as ++ n :: bs).foldl take s).found := by
  rw [List.foldl_append, List.foldl_cons, take_or ho]
  exact found_foldl_take (value_foldl_take_of_true h ha)

end Inline.Scan

namespace Node

theorem foldl_apply_false {ns : List (Node Bool)} (h : ∀ n ∈ ns, n.child = false) :
    ns.foldl apply false = false := by
  induction ns with
  | nil => rfl
  | cons n ns ih =>
    obtain ⟨hn, hs⟩ := List.forall_mem_cons.mp h
    have ha : apply false n = false := by simp [apply, hn]
    rw [List.foldl_cons, ha, ih hs]

theorem exists_and_after_or {α : Type} {ns : List (Node α)} (h : ¬ OrsLast ns) :
    ∃ as n bs m cs, ns = as ++ n :: bs ++ m :: cs ∧ n.connective = some .or ∧
      m.connective ≠ some .or := by
  simp only [OrsLast, List.pairwise_iff_forall_sublist, not_forall] at h
  obtain ⟨n, m, hs, ho, hm⟩ := h
  obtain ⟨xs, ys, rfl, hx, hy⟩ := List.cons_sublist_iff.mp hs
  obtain ⟨as, bs, rfl⟩ := List.append_of_mem hx
  obtain ⟨bs', cs, rfl⟩ := List.append_of_mem (List.singleton_sublist.mp hy)
  exact ⟨as, n, bs ++ bs', m, cs, by simp, ho, hm⟩

end Node

namespace Expr

variable {v : Condition → Bool} {n : Node Expr} {ns : List (Node Expr)}

/-- Every node is a condition. -/
def areConditions (ns : List (Node Expr)) : Bool :=
  ns.all fun n =>
    match n.child with
    | condition _ => true
    | _ => false

theorem exists_condition (h : areConditions ns) (hn : n ∈ ns) : ∃ c, n.child = condition c := by
  have hc := List.all_eq_true.mp h n hn
  cases he : n.child with
  | condition c => exact ⟨c, rfl⟩
  | composite _ | group _ | constant _ _ | foreign _ => simp [he] at hc

theorem areConditions_mono {ms : List (Node Expr)} (h : areConditions ns) (hs : ms ⊆ ns) :
    areConditions ms :=
  List.all_eq_true.mpr fun n hn => List.all_eq_true.mp h n (hs hn)

theorem orsOnTop_of_areConditions (h : areConditions ns) : (composite ns).orsOnTop := by
  refine List.all_eq_true.mpr fun n hn => ?_
  obtain ⟨c, hc⟩ := exists_condition h hn
  rw [hc]
  rfl

theorem eval_eq_value (v : Condition → Bool) (n : Node Expr) (ns : List (Node Expr)) :
    eval v (composite (n :: ns)) =
      ((evalNodes v ns).foldl Inline.Scan.take ⟨false, n.child.eval v⟩).value := by
  obtain ⟨r, rs, hr⟩ := Node.runs_cons ⟨n.connective, n.child.eval v⟩ (evalNodes v ns)
  rw [Inline.Scan.value_foldl_take hr, eval, evalNodes, someRun, hr]
  simp

def inOrder (v : Condition → Bool) (ns : List (Node Expr)) : Bool :=
  Node.leftToRight (evalNodes v ns)

theorem eval_of_inOrder (h : inOrder v ns) : (composite ns).eval v := by
  cases ns with
  | nil => rfl
  | cons n ns =>
    rw [eval_eq_value]
    exact Inline.Scan.value_of_foldl_apply (fun hb => by simpa [Inline.Scan.value] using hb) h

theorem orsLast_evalNodes : Node.OrsLast (evalNodes v ns) ↔ Node.OrsLast ns := by
  rw [evalNodes_eq_map, Node.OrsLast, List.pairwise_map]
  rfl

theorem inOrder_eq_eval (h : Node.OrsLast ns) (v : Condition → Bool) :
    inOrder v ns = (composite ns).eval v := by
  cases ns with
  | nil => rfl
  | cons n ns =>
    have ho : Node.OrsLast (evalNodes v ns) := orsLast_evalNodes.mpr h.of_cons
    have hf : (⟨false, n.child.eval v⟩ : Inline.Scan).found →
        ∀ m ∈ evalNodes v ns, m.connective = some .or := fun h => absurd h Bool.false_ne_true
    rw [eval_eq_value, ← Inline.Scan.foldl_apply_eq_value ho hf]
    simp only [Inline.Scan.value, Bool.false_or]
    rfl

def upTo (ns : List (Node Expr)) (c : Condition) : Bool :=
  c ∈ ns.flatMap (·.child.leaves)

theorem evalNodes_append (v : Condition → Bool) (ns ms : List (Node Expr)) :
    evalNodes v (ns ++ ms) = evalNodes v ns ++ evalNodes v ms := by
  simp only [evalNodes_eq_map, List.map_append]

theorem eval_upTo_before {xs : List (Node Expr)} (hf : areConditions xs) :
    ∀ n ∈ xs, n.child.eval (upTo xs) = true := by
  intro n hn
  obtain ⟨c, hc⟩ := exists_condition hf hn
  have hm : c ∈ xs.flatMap (·.child.leaves) :=
    List.mem_flatMap.mpr ⟨n, hn, by rw [hc]; exact List.mem_singleton_self c⟩
  simpa [hc, eval, upTo] using hm

theorem eval_upTo_after {xs ys : List (Node Expr)} (hf : areConditions ys)
    (hd : (composite (xs ++ ys)).leaves.Nodup) :
    ∀ n ∈ ys, n.child.eval (upTo xs) = false := by
  intro n hn
  obtain ⟨c, hc⟩ := exists_condition hf hn
  have hm : c ∈ ys.flatMap (·.child.leaves) :=
    List.mem_flatMap.mpr ⟨n, hn, by rw [hc]; exact List.mem_singleton_self c⟩
  rw [leaves, nodeLeaves_eq_flatMap, List.flatMap_append] at hd
  have hx : c ∉ xs.flatMap (·.child.leaves) := fun hx =>
    (List.nodup_append.mp hd).2.2 c hx c hm rfl
  simpa [hc, eval, upTo] using hx

theorem child_of_mem_evalNodes {k : Node Bool} {b : Bool} (h : ∀ n ∈ ns, n.child.eval v = b)
    (hk : k ∈ evalNodes v ns) : k.child = b := by
  rw [evalNodes_eq_map] at hk
  obtain ⟨n, hn, rfl⟩ := List.mem_map.mp hk
  exact h n hn

/-- With an `and` after an `or` the two evaluations differ: let the conditions before the `and` be
true and the others not. -/
theorem exists_inOrder_ne_eval (hl : layoutFault? ns = none) (hf : areConditions ns)
    (hd : (composite ns).leaves.Nodup) (ho : ¬ Node.OrsLast ns) :
    ∃ v, inOrder v ns = false ∧ (composite ns).eval v = true := by
  obtain ⟨k, ks, rfl, hk, -⟩ := layoutFault?_eq_none_iff.mp hl
  have hks : ¬ Node.OrsLast ks := fun h =>
    ho (List.pairwise_cons.mpr ⟨fun m _ hc => by simp [hk] at hc, h⟩)
  obtain ⟨as, n, bs, m, cs, rfl, hn, hm⟩ := Node.exists_and_after_or hks
  have hcut : k :: (as ++ n :: bs ++ m :: cs) = k :: (as ++ n :: bs) ++ m :: cs := rfl
  rw [hcut] at hf hd
  obtain ⟨hx, hy⟩ : areConditions (k :: (as ++ n :: bs)) ∧ areConditions (m :: cs) := by
    rwa [areConditions, List.all_append, Bool.and_eq_true] at hf
  have htrue := eval_upTo_before hx
  have hfalse := eval_upTo_after hy hd
  generalize upTo (k :: (as ++ n :: bs)) = v at htrue hfalse
  refine ⟨v, ?_, ?_⟩
  · obtain ⟨hm', hcs⟩ := List.forall_mem_cons.mp hfalse
    have hc := Node.foldl_apply_false fun x hx => child_of_mem_evalNodes hcs hx
    rw [inOrder, evalNodes, Node.leftToRight, evalNodes_append, List.foldl_append, evalNodes,
      List.foldl_cons, Node.apply, if_neg hm, hm', Bool.and_false, hc]
  · obtain ⟨hk', hxs⟩ := List.forall_mem_cons.mp htrue
    have has : ∀ x ∈ evalNodes v as, x.child = true := fun x hx =>
      child_of_mem_evalNodes (fun y hy => hxs y (List.mem_append_left _ hy)) hx
    have hv : (⟨false, k.child.eval v⟩ : Inline.Scan).value := by
      simp [Inline.Scan.value, hk']
    rw [eval_eq_value, evalNodes_append, List.foldl_append, evalNodes_append, evalNodes]
    have hn' : (⟨n.connective, n.child.eval v⟩ : Node Bool).connective = some .or := hn
    exact Inline.Scan.value_of_found (Inline.Scan.found_foldl_take
      (Inline.Scan.found_of_or hv has hn'))

/-- A chain of conditions has a row for each of its conjunctions, so some row fires just when the
chain is true with `and` before `or`. From left to right it is true no more often, and just as often
if no `and` comes after an `or`; with different conditions, only then. -/
theorem inOrder_eq_fires (hc : (composite ns).isComplete) (hl : layoutFault? ns = none)
    (hf : areConditions ns) :
    (∀ columns outputs, (composite ns).compileRows columns outputs =
      .ok ((composite ns).compiledGroups.map (row columns outputs))) ∧
    (∀ outputs, (composite ns).compileOwnRows outputs =
      .ok ((composite ns).compiledGroups.map (row (parameterNames [composite ns]) outputs))) ∧
    (∀ v, (composite ns).fires v = (composite ns).eval v) ∧
    (∀ v, inOrder v ns → (composite ns).fires v) ∧
    (Node.OrsLast ns → ∀ v, inOrder v ns = (composite ns).fires v) ∧
    ((composite ns).leaves.Nodup → (∀ v, inOrder v ns = (composite ns).fires v) →
      Node.OrsLast ns) := by
  have hn : composite ns ≠ composite [] := by
    rintro h
    cases composite.inj h
    cases hl
  have he := fires_eq_eval hc (orsOnTop_of_areConditions hf) hn
  refine ⟨compileRows_eq hc, compileOwnRows_eq hc, he, fun v hv => ?_, fun ho v => ?_,
    fun hd ha => ?_⟩
  · rw [he]
    exact eval_of_inOrder hv
  · rw [he, inOrder_eq_eval ho]
  · by_contra ho
    obtain ⟨v, hfalse, htrue⟩ := exists_inOrder_ne_eval hl hf hd ho
    have h := ha v
    rw [he, hfalse, htrue] at h
    cases h

def largeVipOrRush : List (Node Expr) :=
  [⟨none, condition (.greaterThan "amount" "500")⟩,
    ⟨some .and, condition (.equals "class" "vip")⟩,
    ⟨some .or, condition (.equals "rush" "true")⟩]

theorem largeVipOrRush_inOrder : (composite largeVipOrRush).isComplete ∧
    layoutFault? largeVipOrRush = none ∧ areConditions largeVipOrRush ∧
    Node.OrsLast largeVipOrRush ∧
    ∀ v, inOrder v largeVipOrRush = (composite largeVipOrRush).fires v := by
  have hc : (composite largeVipOrRush).isComplete := by decide
  have hl : layoutFault? largeVipOrRush = none := by decide
  have hf : areConditions largeVipOrRush := by decide
  have ho : Node.OrsLast largeVipOrRush := by decide
  exact ⟨hc, hl, hf, ho, (inOrder_eq_fires hc hl hf).2.2.2.2.1 ho⟩

def largeOrVipRush : List (Node Expr) :=
  [⟨none, condition (.greaterThan "amount" "500")⟩,
    ⟨some .or, condition (.equals "class" "vip")⟩,
    ⟨some .and, condition (.equals "rush" "true")⟩]

def onAmount (c : Condition) : Bool := c.parameter = "amount"

/-- The first row asks for no rush. -/
theorem largeOrVipRush_fires_on_amount : (composite largeOrVipRush).isComplete ∧
    layoutFault? largeOrVipRush = none ∧ areConditions largeOrVipRush ∧
    (composite largeOrVipRush).compileOwnRows [] = .ok
      [⟨[("amount", "> 500"), ("class", ""), ("rush", "")], []⟩,
        ⟨[("amount", ""), ("class", "\"vip\""), ("rush", "true")], []⟩] ∧
    (composite largeOrVipRush).fires onAmount = true ∧
    inOrder onAmount largeOrVipRush = false := by
  have hc : (composite largeOrVipRush).isComplete := by decide
  refine ⟨hc, by decide, by decide, ?_, by decide, by decide⟩
  rw [compileOwnRows_eq hc]
  rfl

end Expr

end RuleTables
