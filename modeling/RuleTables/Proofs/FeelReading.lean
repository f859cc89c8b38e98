import RuleTables.Proofs.FeelScan

namespace RuleTables

namespace Expr

variable {n : Node Expr} {ns : List (Node Expr)}

open Inline Inline.Scan

theorem leaves_printed_append (xs ys : List (Node Expr)) :
    (printed (xs ++ ys)).leaves = (printed xs).leaves ++ (printed ys).leaves := by
  simp only [printed, leaves, nodeLeaves_eq_flatMap, List.flatMap_append]

theorem leaves_spread {c : Condition} (hn : n.child = condition c) :
    (composite n.spread).leaves = (composite c.chain).leaves := by
  obtain ⟨conn, e⟩ := n
  obtain rfl : e = condition c := hn
  rw [Node.spread]
  dsimp only
  split
  · simp [leaves]
  · obtain ⟨m, ms, hm, -⟩ := layoutFault?_eq_none_iff.mp c.layoutFault?_chain
    rw [hm]
    simp [leaves]

theorem leaves_printed_singleton {c : Condition} (hn : n.child = condition c) :
    (printed [n]).leaves = (composite c.chain).leaves := by
  rw [printed, List.flatMap_singleton, leaves_spread hn]

theorem alone_of_leaves {w : Condition → Bool} {c : Condition} {b : Bool}
    (h : ∀ d ∈ (composite c.chain).leaves, w d = b) : c.alone w = b := by
  rw [Condition.alone]
  unfold Condition.chain at h ⊢
  split at h
  all_goals
    simp only [leaves, nodeLeaves_eq_flatMap, List.flatMap_cons, List.flatMap_nil,
      List.append_nil, List.cons_append, List.nil_append, List.forall_mem_cons,
      List.not_mem_nil] at h
    rw [eval_eq_value]
    simp [evalNodes, eval, take, operand, value, h]

theorem eval_of_leaves_printed {w : Condition → Bool} {b : Bool} (hf : areConditions ns)
    (h : ∀ d ∈ (printed ns).leaves, w d = b) :
    (∀ k ∈ ns.flatMap Node.spread, k.child.eval w = b) ∧
      ∀ k ∈ ns, k.child.eval (Condition.alone w) = b := by
  have hchain : ∀ n ∈ ns, ∀ c, n.child = condition c →
      ∀ d ∈ (composite c.chain).leaves, w d = b := by
    intro n hn c hc d hd
    refine h d ?_
    rw [← leaves_spread hc, leaves, nodeLeaves_eq_flatMap] at hd
    obtain ⟨k, hk, hd⟩ := List.mem_flatMap.mp hd
    rw [printed, leaves, nodeLeaves_eq_flatMap]
    exact List.mem_flatMap.mpr ⟨k, List.mem_flatMap.mpr ⟨n, hn, hk⟩, hd⟩
  constructor
  · exact Node.forall_spread (·.eval w = b) hf fun n hn c hc =>
      ⟨alone_of_leaves (hchain n hn c hc), hchain n hn c hc⟩
  · intro n hn
    obtain ⟨c, hc⟩ := exists_condition hf hn
    rw [hc]
    exact alone_of_leaves (hchain n hn c hc)

section Torn

variable {w : Condition → Bool} {c : Condition} {m : Node Expr} {as ys zs : List (Node Expr)}

theorem head?_connective_spread (h : ∀ k ∈ ns.head?, k.connective = some .or) :
    ∀ k ∈ (ns.flatMap Node.spread).head?, k.connective = some .or := by
  cases ns with
  | nil => exact h
  | cons n ns =>
    obtain ⟨k, ks, hk, hc, -⟩ := exists_spread n
    rw [List.flatMap_cons, hk]
    intro j hj
    obtain rfl : k = j := Option.some.inj hj
    exact hc.trans (h n rfl)

theorem nodes_false (hl : layoutFault? (as ++ zs) = none) (h : ∀ n ∈ as, n.child.eval w = false) :
    nodes w start as = lost ∨ as = [] := by
  cases as with
  | nil => exact .inr rfl
  | cons n as =>
    obtain ⟨k, ks, hk, hn, -⟩ := layoutFault?_eq_none_iff.mp hl
    obtain rfl : n = k := (List.cons.inj hk).1
    obtain ⟨hf, hs⟩ := List.forall_mem_cons.mp h
    have hlost : start.take ⟨n.connective, n.child.eval w⟩ = lost := by
      rw [take_and (by simp [hn]), hf]
      rfl
    rw [nodes_cons, hlost]
    exact .inl (nodes_lost fun k hk _ => hs k hk)

/-- An `and` in front of an open test for emptiness binds the first of its comparisons: the second
is enough for the text, if what is joined to it by `and` holds. -/
theorem eval_torn_before (hl : layoutFault? (as ++ m :: (ys ++ zs)) = none)
    (hf : areConditions (as ++ m :: (ys ++ zs))) (hn : as ≠ []) (hm : m.child = condition c)
    (ho : m.isOpen) (hand : m.connective ≠ some .or) (hy : ∀ k ∈ ys, k.connective ≠ some .or)
    (hz : ∀ k ∈ zs.head?, k.connective = some .or)
    (hpre : ∀ d ∈ (printed as).leaves, w d = false) (hb : w (c.comparison .equals) = true)
    (hmid : ∀ d ∈ (printed ys).leaves, w d = true)
    (hpost : ∀ d ∈ (printed zs).leaves, w d = false) :
    (composite (as ++ m :: (ys ++ zs))).eval (Condition.alone w) = false ∧
      (printed (as ++ m :: (ys ++ zs))).eval w = true := by
  have hx : areConditions as := areConditions_mono hf (List.subset_append_left _ _)
  have hys : areConditions ys := areConditions_mono hf fun k hk => by simp [hk]
  have hzs : areConditions zs := areConditions_mono hf fun k hk => by simp [hk]
  constructor
  · have hlost := (nodes_false hl (eval_of_leaves_printed hx hpre).2).resolve_right hn
    have hz' := (eval_of_leaves_printed hzs hpost).2
    rw [eval_eq_nodes _ hl, nodes_append, hlost, nodes_lost fun k hk hor => ?_]
    · rfl
    · rcases List.mem_cons.mp hk with rfl | hk
      · exact absurd hor hand
      · rcases List.mem_append.mp hk with hk | hk
        · exact absurd hor (hy k hk)
        · exact hz' k hk
  · rw [eval_printed w hl, nodes_printed_append, nodes_printed_cons, nodes_printed_append]
    refine value_nodes_of_or (value_nodes_of_true ?_ (eval_of_leaves_printed hys hmid).1)
      (head?_connective_spread hz)
    rw [nodes_spread_of_isOpen hm ho]
    exact value_iff.mpr (.inr hb)

/-- An `and` behind an open test for emptiness that is not bound itself binds the second of its
comparisons: the first is enough for the text. -/
theorem eval_torn_behind {k : Node Expr} (hl : layoutFault? (as ++ m :: k :: zs) = none)
    (hf : areConditions (as ++ m :: k :: zs)) (hm : m.child = condition c) (ho : m.isOpen)
    (hor : as = [] ∨ m.connective = some .or) (hand : k.connective ≠ some .or)
    (hpre : ∀ d ∈ (printed as).leaves, w d = false) (ha : w (c.comparison .isNull) = true)
    (hpost : ∀ d ∈ (printed (k :: zs)).leaves, w d = false) :
    (composite (as ++ m :: k :: zs)).eval (Condition.alone w) = false ∧
      (printed (as ++ m :: k :: zs)).eval w = true := by
  have hx : areConditions as := areConditions_mono hf (List.subset_append_left _ _)
  have hzs : areConditions (k :: zs) := areConditions_mono hf fun j hj => by simp_all
  obtain ⟨hk, hz⟩ := List.forall_mem_cons.mp (eval_of_leaves_printed hzs hpost).2
  have hfirst : as = [] → m.connective ≠ some .or := by
    rintro rfl
    obtain ⟨n, ns, hn, hnone, -⟩ := layoutFault?_eq_none_iff.mp hl
    rw [(List.cons.inj hn).1, hnone]
    nofun
  constructor
  · have hs : (nodes (Condition.alone w) start as).take ⟨m.connective, c.alone w⟩ =
        ⟨false, true⟩ := by
      rw [(evalNodes_spread_of_isOpen hm ho).2, ha, Bool.true_or]
      by_cases has : as = []
      · subst has
        exact take_and (hfirst rfl)
      · rw [(nodes_false hl (eval_of_leaves_printed hx hpre).2).resolve_right has,
          take_or (hor.resolve_left has)]
        rfl
    have hk' : (⟨false, true⟩ : Scan).take ⟨k.connective, k.child.eval (Condition.alone w)⟩ =
        lost := by
      rw [take_and hand, hk]
      rfl
    have hm' : m.child.eval (Condition.alone w) = c.alone w := by rw [hm]; rfl
    rw [eval_eq_nodes _ hl, nodes_append, nodes_cons, nodes_cons, hm', hs, hk',
      nodes_lost fun j hj _ => hz j hj]
    rfl
  · rw [eval_printed w hl, nodes_printed_append, nodes_printed_cons,
      nodes_spread_of_isOpen hm ho, ha]
    refine value_of_found (found_foldl_take ?_)
    by_cases has : as = []
    · subst has
      show (start.take ⟨m.connective, true⟩).value
      rw [take_and (hfirst rfl)]
      rfl
    · rw [take_or (hor.resolve_left has)]
      exact value_iff.mpr (.inr rfl)

end Torn

section Distinct

variable {lead : String} {c : Condition} {m : Node Expr} {as bs zs : List (Node Expr)}

/-- The truth of a bare comparison by its FEEL text. -/
def feelTruth (lead : String) (v : String → Bool) (c : Condition) : Bool :=
  v (Inline.feel.conditionText lead c)

/-- No comparison is printed twice. -/
def AreDistinct (lead : String) (ns : List (Node Expr)) : Prop :=
  ((printed ns).leaves.map (Inline.feel.conditionText lead)).Nodup

theorem exists_feelTruth {pre mid post : List Condition}
    (hd : ((pre ++ mid ++ post).map (Inline.feel.conditionText lead)).Nodup) :
    ∃ v, (∀ d ∈ pre, feelTruth lead v d = false) ∧ (∀ d ∈ mid, feelTruth lead v d = true) ∧
      ∀ d ∈ post, feelTruth lead v d = false := by
  rw [List.map_append, List.map_append] at hd
  obtain ⟨hl, -, hr⟩ := List.nodup_append.mp hd
  obtain ⟨-, -, hl⟩ := List.nodup_append.mp hl
  refine ⟨fun s => s ∈ mid.map (Inline.feel.conditionText lead), fun d hd => ?_, fun d hd => ?_,
    fun d hd => ?_⟩
  · exact decide_eq_false fun h => hl _ (List.mem_map_of_mem hd) _ h rfl
  · exact decide_eq_true (List.mem_map_of_mem hd)
  · exact decide_eq_false fun h =>
      hr _ (List.mem_append_right _ h) _ (List.mem_map_of_mem hd) rfl

theorem leaves_printed_of_isOpen (hm : m.child = condition c) (ho : m.isOpen) :
    (printed (m :: bs)).leaves =
      c.comparison .isNull :: c.comparison .equals :: (printed bs).leaves := by
  have hop : c.operator = some .isEmpty := by
    rw [Node.isOpen, hm] at ho
    simp_all
  rw [← List.singleton_append, leaves_printed_append, leaves_printed_singleton hm, Condition.chain,
    hop]
  rfl

theorem exists_torn_before (hl : layoutFault? (as ++ m :: bs) = none)
    (hf : areConditions (as ++ m :: bs)) (hd : AreDistinct lead (as ++ m :: bs)) (hn : as ≠ [])
    (ho : m.isOpen) (hand : m.connective ≠ some .or) :
    ∃ v, (composite (as ++ m :: bs)).eval (Condition.alone (feelTruth lead v)) = false ∧
      (printed (as ++ m :: bs)).eval (feelTruth lead v) = true := by
  obtain ⟨c, hm⟩ := exists_condition hf (List.mem_append_right as List.mem_cons_self)
  -- The second comparison and all that is joined to it by `and` are true, and nothing else is.
  let ys := bs.takeWhile (·.connective ≠ some .or)
  let zs := bs.dropWhile (·.connective ≠ some .or)
  have hbs : bs = ys ++ zs := List.takeWhile_append_dropWhile.symm
  have hy : ∀ k ∈ ys, k.connective ≠ some .or := fun k hk => by
    simpa using List.mem_takeWhile_imp hk
  have hz : ∀ k ∈ zs.head?, k.connective = some .or := fun k hk => by
    have h := List.head?_dropWhile_not (fun k : Node Expr => k.connective ≠ some .or) bs
    rw [Option.mem_def.mp hk] at h
    simpa using h
  clear_value ys zs
  subst hbs
  have hleaves : (printed (as ++ m :: (ys ++ zs))).leaves =
      ((printed as).leaves ++ [c.comparison .isNull]) ++
        (c.comparison .equals :: (printed ys).leaves) ++ (printed zs).leaves := by
    rw [leaves_printed_append, leaves_printed_of_isOpen hm ho, leaves_printed_append]
    simp
  rw [AreDistinct, hleaves] at hd
  obtain ⟨v, hpre, hmid, hpost⟩ := exists_feelTruth hd
  obtain ⟨hb, hmid⟩ := List.forall_mem_cons.mp hmid
  obtain ⟨hpre, -⟩ := List.forall_mem_append.mp hpre
  exact ⟨v, eval_torn_before hl hf hn hm ho hand hy hz hpre hb hmid hpost⟩

theorem exists_torn_behind {k : Node Expr} (hl : layoutFault? (as ++ m :: k :: zs) = none)
    (hf : areConditions (as ++ m :: k :: zs)) (hd : AreDistinct lead (as ++ m :: k :: zs))
    (ho : m.isOpen) (hor : as = [] ∨ m.connective = some .or) (hand : k.connective ≠ some .or) :
    ∃ v, (composite (as ++ m :: k :: zs)).eval (Condition.alone (feelTruth lead v)) = false ∧
      (printed (as ++ m :: k :: zs)).eval (feelTruth lead v) = true := by
  obtain ⟨c, hm⟩ := exists_condition hf (List.mem_append_right as List.mem_cons_self)
  -- The first comparison is true, and nothing else is.
  have hleaves : (printed (as ++ m :: k :: zs)).leaves =
      (printed as).leaves ++ [c.comparison .isNull] ++
        (c.comparison .equals :: (printed (k :: zs)).leaves) := by
    rw [leaves_printed_append, leaves_printed_of_isOpen hm ho]
    simp
  rw [AreDistinct, hleaves] at hd
  obtain ⟨v, hpre, hmid, hpost⟩ := exists_feelTruth hd
  exact ⟨v, eval_torn_behind hl hf hm ho hor hand hpre (hmid _ (List.mem_singleton_self _))
    (List.forall_mem_cons.mp hpost).2⟩

theorem exists_torn (hl : layoutFault? ns = none) (hf : areConditions ns) (hd : AreDistinct lead ns)
    (hw : ¬ Node.AreWhole ns) :
    ∃ v, (composite ns).eval (Condition.alone (feelTruth lead v)) = false ∧
      (printed ns).eval (feelTruth lead v) = true := by
  -- the connective between two nodes that are not whole tears the open one of them apart
  rw [Node.AreWhole, List.isChain_iff_forall_rel_of_append_cons_cons] at hw
  push Not at hw
  obtain ⟨n, m, as, bs, rfl, hand, ho⟩ := hw
  cases hm : m.isOpen with
  | true =>
    rw [List.append_cons] at hl hf hd ⊢
    exact exists_torn_before hl hf hd (by simp) hm hand
  | false =>
    have hn : n.isOpen := by
      by_contra h
      exact ho (Bool.not_eq_true _ ▸ h) hm
    -- The test is free on its left, or else the `and` in front of it tears it apart already.
    by_cases hor : as = [] ∨ n.connective = some .or
    · exact exists_torn_behind hl hf hd hn hor hand
    · obtain ⟨has, hand⟩ := not_or.mp hor
      exact exists_torn_before hl hf hd has hn hand

end Distinct

/-- The FEEL text of conditions, read comparison by comparison, is true or is not. -/
def ReadsAs (lead : String) (v : String → Bool) (ns : List (Node Expr)) (b : Bool) : Prop :=
  Reads (feelTruth lead v) .line (tokens (printed ns)) b

theorem readsAs_iff {lead : String} {v : String → Bool} {b : Bool} (hl : layoutFault? ns = none)
    (hf : areConditions ns) : ReadsAs lead v ns b ↔ b = (printed ns).eval (feelTruth lead v) := by
  have hr := reads_printed (feelTruth lead v) hl hf
  exact ⟨fun hb => hb.unique hr, fun hb => hb ▸ hr⟩

theorem render_printed {lead : String} (hc : (composite ns).isComplete) :
    feel.render lead (composite ns) = .ok (feelText lead (tokens (printed ns))) := by
  rw [render, obstacle?_eq_none hc, feelText_printed lead ns hc]
  rfl

theorem readsAs_singleton {lead : String} {c : Condition} (hc : (condition c).isComplete) :
    feel.render lead (condition c) =
      .ok (feelText lead (tokens (printed [⟨none, condition c⟩]))) ∧
    Prints Operator.feelTest " and " " or " lead (tokens (printed [⟨none, condition c⟩]))
      (feelText lead (tokens (printed [⟨none, condition c⟩]))) ∧
    ∀ v b, ReadsAs lead v [⟨none, condition c⟩] b ↔ b = c.alone (feelTruth lead v) := by
  let ns : List (Node Expr) := [⟨none, condition c⟩]
  have hns : (composite ns).isComplete :=
    isComplete_composite.mpr (List.forall_mem_singleton.mpr hc)
  refine ⟨?_, prints_printed lead hns rfl rfl, fun v b => ?_⟩
  · rw [render, obstacle?_eq_none hc, feelText_printed lead ns hns, tokens, firstTokens,
      laterTokens, List.append_nil]
    rfl
  · have hw : Node.AreWhole ns := .singleton _
    rw [readsAs_iff rfl rfl, eval_printed_of_areWhole _ rfl rfl hw, eval_eq_value]
    simp [evalNodes, eval, value]

/-- The FEEL text of a chain of conditions is true wherever the chain is, and nowhere else if no
open test for emptiness is joined by `and` to a condition beside it; with comparisons that are all
different, only then. -/
theorem feel_reads_conditions (lead : String) (hc : (composite ns).isComplete)
    (hl : layoutFault? ns = none) (hf : areConditions ns) :
    (feel.render lead (composite ns) = .ok (feelText lead (tokens (printed ns))) ∧
      Prints Operator.feelTest " and " " or " lead (tokens (printed ns))
        (feelText lead (tokens (printed ns))) ∧
      ∀ v, ∃! b, ReadsAs lead v ns b) ∧
    (∀ n ∈ ns, ∀ c, n.child = condition c →
      feel.render lead n.child = .ok (feelText lead (tokens (printed [⟨none, n.child⟩]))) ∧
      Prints Operator.feelTest " and " " or " lead (tokens (printed [⟨none, n.child⟩]))
        (feelText lead (tokens (printed [⟨none, n.child⟩]))) ∧
      ∀ v b, ReadsAs lead v [⟨none, n.child⟩] b ↔ b = c.alone (feelTruth lead v)) ∧
    (∀ v, (composite ns).eval (Condition.alone (feelTruth lead v)) → ReadsAs lead v ns true) ∧
    (Node.AreWhole ns → ∀ v b, ReadsAs lead v ns b ↔
      b = (composite ns).eval (Condition.alone (feelTruth lead v))) ∧
    (AreDistinct lead ns →
      (∀ v, ReadsAs lead v ns true →
        (composite ns).eval (Condition.alone (feelTruth lead v)) = true) →
      Node.AreWhole ns) := by
  refine ⟨⟨render_printed hc, prints_printed lead hc hl hf, fun v =>
    ⟨_, (readsAs_iff hl hf).mpr rfl, fun b hb => (readsAs_iff hl hf).mp hb⟩⟩, fun n hn c hcn => ?_,
    fun v hv => ?_, fun hw v b => ?_, fun hd ha => ?_⟩
  · rw [hcn]
    exact readsAs_singleton (hcn ▸ isComplete_composite.mp hc n hn)
  · exact (readsAs_iff hl hf).mpr (eval_printed_of_eval _ hl hf hv).symm
  · rw [readsAs_iff hl hf, eval_printed_of_areWhole _ hl hf hw]
  · by_contra hw
    obtain ⟨v, hfalse, htrue⟩ := exists_torn hl hf hd hw
    have h := ha v ((readsAs_iff hl hf).mpr htrue.symm)
    rw [hfalse] at h
    cases h

def rushOrUnnamed : List (Node Expr) :=
  [⟨none, condition (.equals "rush" "true")⟩,
    ⟨some .or, condition { Condition.test .isEmpty "name" "" with grouped := false }⟩]

theorem rushOrUnnamed_reads : (composite rushOrUnnamed).isComplete ∧
    layoutFault? rushOrUnnamed = none ∧ areConditions rushOrUnnamed ∧
    feel.render "" (composite rushOrUnnamed) = .ok "(rush = true) or name = null or name = \"\"" ∧
    Prints Operator.feelTest " and " " or " "" (tokens (printed rushOrUnnamed))
      "(rush = true) or name = null or name = \"\"" ∧
    Node.AreWhole rushOrUnnamed ∧ ∀ v b, ReadsAs "" v rushOrUnnamed b ↔
      b = (composite rushOrUnnamed).eval (Condition.alone (feelTruth "" v)) := by
  have hc : (composite rushOrUnnamed).isComplete := by decide
  have hl : layoutFault? rushOrUnnamed = none := by decide
  have hf : areConditions rushOrUnnamed := by decide
  have hw : Node.AreWhole rushOrUnnamed := List.isChain_pair.mpr (.inl rfl)
  obtain ⟨⟨-, hp, -⟩, -, -, hr, -⟩ := feel_reads_conditions "" hc hl hf
  exact ⟨hc, hl, hf, rfl, hp, hw, hr hw⟩

def rushAndUnnamed : List (Node Expr) :=
  [⟨none, condition (.equals "rush" "true")⟩,
    ⟨some .and, condition { Condition.test .isEmpty "name" "" with grouped := false }⟩]

/-- Of an order that is no rush, an empty name is enough for the text. -/
theorem rushAndUnnamed_reads_true : (composite rushAndUnnamed).isComplete ∧
    layoutFault? rushAndUnnamed = none ∧ areConditions rushAndUnnamed ∧
    feel.render "" (composite rushAndUnnamed) =
      .ok "(rush = true) and name = null or name = \"\"" ∧
    ReadsAs "" (fun s => s = "name = \"\"") rushAndUnnamed true ∧
    (composite rushAndUnnamed).eval
      (Condition.alone (feelTruth "" fun s => s = "name = \"\"")) = false := by
  have hl : layoutFault? rushAndUnnamed = none := by decide
  have hf : areConditions rushAndUnnamed := by decide
  exact ⟨by decide, hl, hf, rfl, (readsAs_iff hl hf).mpr (by decide), by decide⟩

end Expr

end RuleTables
