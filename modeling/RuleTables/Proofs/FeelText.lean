import RuleTables.Proofs.EvaluationOrder
import RuleTables.Proofs.InlineMeaning
import RuleTables.Proofs.StoredText

namespace RuleTables

/-- A bare comparison of the parameter without a value, or with the empty text. -/
def Condition.comparison (c : Condition) (op : Operator) : Condition :=
  ⟨c.parameter, some op, "", .string, false⟩

/-- The comparisons that are printed for a condition. -/
def Condition.chain (c : Condition) : List (Node Expr) :=
  match c.operator with
  | some .isEmpty => [⟨none, .condition (c.comparison .isNull)⟩,
    ⟨some .or, .condition (c.comparison .equals)⟩]
  | some .isNotEmpty => [⟨none, .condition (c.comparison .isNotNull)⟩,
    ⟨some .and, .condition (c.comparison .notEquals)⟩]
  | _ => [⟨none, .condition { c with grouped := false }⟩]

theorem Condition.layoutFault?_chain (c : Condition) : Expr.layoutFault? c.chain = none := by
  unfold chain
  split <;> rfl

theorem Condition.areConditions_chain (c : Condition) : Expr.areConditions c.chain := by
  unfold chain
  split <;> rfl

theorem Condition.isComplete_chain {c : Condition} (h : c.operator.isSome) :
    (Expr.composite c.chain).isComplete := by
  unfold chain
  split
  · rfl
  · rfl
  · exact Expr.isComplete_composite.mpr (List.forall_mem_singleton.mpr h)

theorem Condition.isLaidOut_chain (c : Condition) : (Expr.composite c.chain).isLaidOut := by
  refine Expr.isLaidOut_composite.mpr ⟨c.layoutFault?_chain, fun n hn => ?_⟩
  obtain ⟨d, hd⟩ := Expr.exists_condition c.areConditions_chain hn
  rw [hd]
  rfl

/-- What is printed for a condition beside others: its comparisons in parentheses, or else as they
are, of which the first is joined as the condition is. -/
def Node.spread (n : Node Expr) : List (Node Expr) :=
  match n.child with
  | .condition c =>
    if c.grouped then [⟨n.connective, .group (.composite c.chain)⟩]
    else c.chain.modifyHead fun m => ⟨n.connective, m.child⟩
  | _ => [n]

/-- The comparisons that are printed for a composite of conditions. -/
def Expr.printed (ns : List (Node Expr)) : Expr :=
  .composite (ns.flatMap Node.spread)

theorem Node.child_mem_spread {n k : Node Expr} {c : Condition} (hn : n.child = .condition c)
    (hk : k ∈ n.spread) : k.child = .group (.composite c.chain) ∨
      ∃ d ∈ (Expr.composite c.chain).leaves, k.child = .condition d := by
  rw [spread, hn] at hk
  dsimp only at hk
  split at hk
  · exact .inl (by rw [List.mem_singleton.mp hk])
  · obtain ⟨j, hj, he⟩ : ∃ j ∈ c.chain, k.child = j.child := by
      obtain ⟨m, ms, hm, -⟩ := Expr.layoutFault?_eq_none_iff.mp c.layoutFault?_chain
      rw [hm] at hk ⊢
      rcases List.mem_cons.mp hk with rfl | hk
      · exact ⟨m, List.mem_cons_self, rfl⟩
      · exact ⟨k, List.mem_cons_of_mem m hk, rfl⟩
    obtain ⟨d, hd⟩ := Expr.exists_condition c.areConditions_chain hj
    refine .inr ⟨d, ?_, he.trans hd⟩
    rw [Expr.leaves, Expr.nodeLeaves_eq_flatMap]
    exact List.mem_flatMap.mpr ⟨j, hj, by rw [hd]; exact List.mem_singleton_self d⟩

/-- What is printed is the comparisons of the conditions, by themselves or in parentheses. -/
theorem Node.forall_spread (P : Expr → Prop) {ns : List (Node Expr)} (hf : Expr.areConditions ns)
    (h : ∀ n ∈ ns, ∀ c, n.child = .condition c →
      P (.group (.composite c.chain)) ∧ ∀ d ∈ (Expr.composite c.chain).leaves, P (.condition d)) :
    ∀ k ∈ ns.flatMap spread, P k.child := by
  intro k hk
  obtain ⟨n, hn, hk⟩ := List.mem_flatMap.mp hk
  obtain ⟨c, hc⟩ := Expr.exists_condition hf hn
  obtain ⟨hgroup, hcondition⟩ := h n hn c hc
  rcases child_mem_spread hc hk with hg | ⟨d, hd, hk⟩
  · exact hg ▸ hgroup
  · exact hk ▸ hcondition d hd

namespace Inline

section Text

variable (lead : String) (c : Condition) (n : Node Expr) (ns : List (Node Expr))

def feelText (ts : List Token) : String :=
  String.join (ts.map (feel.tokenText lead))

theorem feelText_append (ts us : List Token) :
    feelText lead (ts ++ us) = feelText lead ts ++ feelText lead us := by
  rw [feelText, List.map_append, String.join_append]
  rfl

theorem feelText_chain (hc : c.operator.isSome) : feelText lead (firstTokens c.chain) =
    feel.conditionText lead { c with grouped := false } := by
  have hor (s : String) : " = null" ++ (" or " ++ s) = " = null or " ++ s := by
    rw [← String.append_assoc]
    rfl
  have hand (s : String) : " != null" ++ (" and " ++ s) = " != null and " ++ s := by
    rw [← String.append_assoc]
    rfl
  obtain ⟨p, op, value, kind, grouped⟩ := c
  obtain ⟨op, rfl⟩ := Option.isSome_iff_exists.mp hc
  cases op with
  | isEmpty | isNotEmpty =>
    simp [feelText, Condition.chain, firstTokens, laterTokens, tokens, tokenText, conditionText,
      Condition.comparison, feel, Operator.feelTest, Operator.literal, Operator.inQuotes,
      Connective.symbol, String.append_assoc, hor, hand]
  | _ => simp [feelText, Condition.chain, firstTokens, laterTokens, tokens, tokenText]

theorem conditionText_of_grouped (hc : c.operator.isSome) (hg : c.grouped) :
    feel.conditionText lead c =
      "(" ++ feel.conditionText lead { c with grouped := false } ++ ")" := by
  obtain ⟨op, ho⟩ := Option.isSome_iff_exists.mp hc
  rw [conditionText, conditionText, ho]
  simp [hg]

theorem exists_spread (n : Node Expr) : ∃ k ks, n.spread = k :: ks ∧
    k.connective = n.connective ∧ (∀ m ∈ ks, m.connective.isSome) ∧
    (n.child.isComplete →
      ∀ lead, feelText lead (firstTokens (k :: ks)) = feelText lead (tokens n.child)) := by
  obtain ⟨conn, e⟩ := n
  cases e with
  | condition c =>
    have ht (lead : String) : feelText lead (tokens (.condition c)) =
        feel.conditionText lead c := by
      simp [feelText, tokens, tokenText]
    cases hg : c.grouped with
    | true =>
      refine ⟨_, [], if_pos hg, rfl, List.forall_mem_nil _, fun ho lead => ?_⟩
      rw [ht, conditionText_of_grouped lead c ho hg, ← feelText_chain lead c ho]
      simp [feelText, firstTokens, laterTokens, tokens, tokenText, String.append_assoc]
    | false =>
      obtain ⟨m, ms, hm, -, hs⟩ := Expr.layoutFault?_eq_none_iff.mp c.layoutFault?_chain
      have hks : c.chain.modifyHead (fun m => ⟨conn, m.child⟩) = ⟨conn, m.child⟩ :: ms := by
        rw [hm]
        rfl
      refine ⟨_, ms, (if_neg (by simp [hg])).trans hks, rfl, hs, fun ho lead => ?_⟩
      have hb : { c with grouped := false } = c := by rw [← hg]
      rw [ht, ← hb, ← feelText_chain lead c ho, hm]
      rfl
  | _ =>
    exact ⟨_, [], rfl, rfl, List.forall_mem_nil _, fun _ _ => by
      rw [firstTokens, laterTokens, List.append_nil]⟩

theorem laterTokens_append (ms : List (Node Expr)) :
    laterTokens (ns ++ ms) = laterTokens ns ++ laterTokens ms := by
  simp only [laterTokens_eq_flatMap, List.flatMap_append]

theorem feelText_later (hc : ∀ n ∈ ns, n.child.isComplete) :
    feelText lead (laterTokens (ns.flatMap Node.spread)) = feelText lead (laterTokens ns) := by
  induction ns with
  | nil => rfl
  | cons n ns ih =>
    obtain ⟨hn, hs⟩ := List.forall_mem_cons.mp hc
    obtain ⟨k, ks, hk, hconn, -, ht⟩ := exists_spread n
    have h : ∀ (x : Option Connective) (ts : List Token), feelText lead (.connective x :: ts) =
        feel.tokenText lead (.connective x) ++ feelText lead ts := fun x ts => by
      rw [feelText, List.map_cons, String.join_cons]
      rfl
    have hks : laterTokens (k :: ks) = .connective n.connective :: firstTokens (k :: ks) := by
      rw [← hconn]
      rfl
    have hns : laterTokens (n :: ns) =
        .connective n.connective :: tokens n.child ++ laterTokens ns := rfl
    rw [List.flatMap_cons, laterTokens_append, hk, hks, hns, feelText_append, feelText_append,
      h, h, ht hn, ih hs]

theorem feelText_printed (hc : (Expr.composite ns).isComplete) :
    feelText lead (tokens (Expr.printed ns)) = feelText lead (tokens (.composite ns)) := by
  rw [Expr.isComplete_composite] at hc
  cases ns with
  | nil => rfl
  | cons n ns =>
    obtain ⟨hn, hs⟩ := List.forall_mem_cons.mp hc
    obtain ⟨k, ks, hk, -, -, ht⟩ := exists_spread n
    have hf : firstTokens (k :: ks ++ ns.flatMap Node.spread) =
        firstTokens (k :: ks) ++ laterTokens (ns.flatMap Node.spread) := by
      rw [List.cons_append, firstTokens, firstTokens, laterTokens_append, List.append_assoc]
    have hns : firstTokens (n :: ns) = tokens n.child ++ laterTokens ns := rfl
    rw [Expr.printed, tokens, tokens, List.flatMap_cons, hk, hf, hns, feelText_append,
      feelText_append, ht hn, feelText_later lead ns hs]

end Text

section Readings

variable {ns : List (Node Expr)}

theorem reads_chain (w : Condition → Bool) (c : Condition) :
    Reads w .line (firstTokens c.chain) ((Expr.composite c.chain).eval w) := by
  obtain ⟨m, ms, hm, -, hs⟩ := Expr.layoutFault?_eq_none_iff.mp c.layoutFault?_chain
  have hf := c.areConditions_chain
  rw [hm] at hf ⊢
  refine reads_composite hs fun k hk => ?_
  obtain ⟨d, hd⟩ := Expr.exists_condition hf hk
  rw [hd]
  exact .single (.test d)

theorem layoutFault?_spread (hl : Expr.layoutFault? ns = none) :
    Expr.layoutFault? (ns.flatMap Node.spread) = none := by
  obtain ⟨n, ms, rfl, hn, hs⟩ := Expr.layoutFault?_eq_none_iff.mp hl
  obtain ⟨k, ks, hk, hconn, hks, -⟩ := exists_spread n
  rw [List.flatMap_cons, hk, List.cons_append]
  refine Expr.layoutFault?_eq_none_iff.mpr ⟨k, _, rfl, hconn.trans hn, fun m hm => ?_⟩
  rcases List.mem_append.mp hm with hm | hm
  · exact hks m hm
  · obtain ⟨x, hx, hm⟩ := List.mem_flatMap.mp hm
    obtain ⟨j, js, hj, hconn, hjs, -⟩ := exists_spread x
    rw [hj] at hm
    rcases List.mem_cons.mp hm with rfl | hm
    · rw [hconn]
      exact hs x hx
    · exact hjs m hm

theorem isComplete_printed (hc : (Expr.composite ns).isComplete) (hf : Expr.areConditions ns) :
    (Expr.printed ns).isComplete := by
  refine Expr.isComplete_composite.mpr (Node.forall_spread (·.isComplete) hf fun n hn c hcn => ?_)
  have hcomp : (Expr.condition c).isComplete := hcn ▸ Expr.isComplete_composite.mp hc n hn
  have hchain := Condition.isComplete_chain hcomp
  exact ⟨Expr.isComplete_group.mpr hchain, Expr.operator_isSome hchain⟩

theorem isLaidOut_printed (hl : Expr.layoutFault? ns = none) (hf : Expr.areConditions ns) :
    (Expr.printed ns).isLaidOut :=
  Expr.isLaidOut_composite.mpr ⟨layoutFault?_spread hl, Node.forall_spread (·.isLaidOut) hf
    fun _ _ c _ => ⟨Expr.isLaidOut_group.mpr c.isLaidOut_chain, fun _ _ => rfl⟩⟩

theorem prints_printed (lead : String) (hc : (Expr.composite ns).isComplete)
    (hl : Expr.layoutFault? ns = none) (hf : Expr.areConditions ns) :
    Prints Operator.feelTest " and " " or " lead (tokens (Expr.printed ns))
      (feelText lead (tokens (Expr.printed ns))) :=
  prints_text feel lead (isComplete_printed hc hf) (isLaidOut_printed hl hf)

theorem reads_printed (w : Condition → Bool) (hl : Expr.layoutFault? ns = none)
    (hf : Expr.areConditions ns) :
    Reads w .line (tokens (Expr.printed ns)) ((Expr.printed ns).eval w) := by
  obtain ⟨k, ks, hk, -, hs⟩ := Expr.layoutFault?_eq_none_iff.mp (layoutFault?_spread hl)
  have hread : ∀ m ∈ ns.flatMap Node.spread,
      Reads w .conjunction (tokens m.child) (m.child.eval w) :=
    Node.forall_spread (fun e => Reads w .conjunction (tokens e) (e.eval w)) hf fun _ _ c _ =>
      ⟨.single (.parens (reads_chain w c)), fun d _ => .single (.test d)⟩
  rw [Expr.printed, tokens]
  rw [hk] at hread ⊢
  exact reads_composite hs hread

end Readings

end Inline

end RuleTables
