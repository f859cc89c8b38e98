import RuleTables.Proofs.RowMeaning
import RuleTables.Proofs.TokenReading

namespace RuleTables.Inline

variable {v : Condition → Bool} {ns : List (Node Expr)} {e : Expr}

theorem Reads.append_and {ts us : List Token} {b c : Bool} (hb : Reads v .conjunction ts b)
    (hc : Reads v .conjunction us c) :
    Reads v .conjunction (ts ++ .connective (some .and) :: us) (b && c) := by
  generalize hl : Level.conjunction = l at hc
  induction hc with
  | single hc => exact .and hb hc
  | and _ hd ih =>
    rw [← List.cons_append, ← List.append_assoc, ← Bool.and_assoc]
    exact .and (ih hl) hd
  | test | truth | parens | run | or => cases hl

theorem firstTokens_cons_cons (n m : Node Expr) (ns : List (Node Expr)) :
    firstTokens (n :: m :: ns) =
      tokens n.child ++ .connective m.connective :: firstTokens (m :: ns) :=
  rfl

theorem reads_conjunction (hn : ns ≠ []) (ha : ∀ n ∈ ns.tail, n.connective = some .and)
    (hr : ∀ n ∈ ns, Reads v .conjunction (tokens n.child) (n.child.eval v)) :
    Reads v .conjunction (firstTokens ns) (ns.all (·.child.eval v)) := by
  cases ns with
  | nil => exact absurd rfl hn
  | cons n ns =>
    induction ns generalizing n with
    | nil => simpa [firstTokens, laterTokens] using hr n List.mem_cons_self
    | cons m ns ih =>
      have hm : Reads v .conjunction (firstTokens (m :: ns)) ((m :: ns).all (·.child.eval v)) :=
        ih m (List.cons_ne_nil _ _) (fun k hk => ha k (List.mem_cons_of_mem _ hk))
          fun k hk => hr k (List.mem_cons_of_mem _ hk)
      rw [firstTokens_cons_cons, ha m List.mem_cons_self, List.all_cons]
      exact (hr n List.mem_cons_self).append_and hm

theorem firstTokens_runs (ns : List (Node Expr)) {r : List (Node Expr)}
    {rs : List (List (Node Expr))} (h : Node.runs ns = r :: rs) :
    firstTokens ns =
      firstTokens r ++ rs.flatMap fun s => .connective (some .or) :: firstTokens s := by
  cases ns with
  | nil => cases h
  | cons n ns =>
    induction ns generalizing n r rs with
    | nil =>
      obtain ⟨rfl, rfl⟩ := List.cons.inj h
      simp
    | cons m ns ih =>
      obtain ⟨s, ss, hs⟩ := Node.runs_cons m ns
      by_cases ho : m.connective = some .or
      · rw [Node.runs_or n m ns ho, hs] at h
        obtain ⟨rfl, rfl⟩ := List.cons.inj h
        rw [firstTokens_cons_cons, ih m hs, ho]
        simp [firstTokens, laterTokens]
      · rw [Node.runs_and n m ns ho, hs] at h
        obtain ⟨rfl, rfl⟩ := List.cons.inj h
        rw [firstTokens_cons_cons, ih m hs, firstTokens_cons_cons]
        simp

theorem reads_line {rs : List (List (Node Expr))} {ts : List Token} {b : Bool}
    (hb : Reads v .line ts b)
    (hr : ∀ r ∈ rs, Reads v .conjunction (firstTokens r) (r.all (·.child.eval v))) :
    Reads v .line (ts ++ rs.flatMap fun r => .connective (some .or) :: firstTokens r)
      (b || rs.any (·.all (·.child.eval v))) := by
  induction rs generalizing ts b with
  | nil => simpa using hb
  | cons r rs ih =>
    have hs : Reads v .line (ts ++ .connective (some .or) :: firstTokens r)
        (b || r.all (·.child.eval v)) := .or hb (hr r List.mem_cons_self)
    have h := ih hs fun s hs => hr s (List.mem_cons_of_mem _ hs)
    rwa [List.append_assoc, Bool.or_assoc] at h

theorem reads_of_isConjunctive (hc : e.isComplete) (hl : e.isLaidOut) (ho : e.isConjunctive) :
    Reads v .conjunction (tokens e) (e.eval v) := by
  induction e with
  | condition c => exact .single (.test c)
  | composite ns ih =>
    obtain ⟨hf, hl⟩ := Expr.isLaidOut_composite.mp hl
    obtain ⟨n, ms, rfl, -, hs⟩ := Expr.layoutFault?_eq_none_iff.mp hf
    rw [Expr.eval_composite_of_isConjunctive ho]
    obtain ⟨hn, ho⟩ := Expr.isConjunctive_composite.mp ho
    refine reads_conjunction (List.cons_ne_nil n ms) ?_ ?_
    · exact fun m hm => Node.joined_by_and (hs m hm) (hn m hm)
    · exact fun m hm => ih m hm (Expr.isComplete_composite.mp hc m hm) (hl m hm) (ho m hm)
  | group e ih =>
    exact .single (.parens (.run (ih (Expr.isComplete_group.mp hc) (Expr.isLaidOut_group.mp hl)
      (Expr.isConjunctive_group.mp ho))))
  | constant b label => exact .single (.truth b)
  | foreign w => cases hc

theorem reads_composite {n : Node Expr} (hs : ∀ m ∈ ns, m.connective.isSome)
    (hr : ∀ m ∈ n :: ns, Reads v .conjunction (tokens m.child) (m.child.eval v)) :
    Reads v .line (firstTokens (n :: ns)) ((Expr.composite (n :: ns)).eval v) := by
  obtain ⟨r, rs, hrs⟩ := Node.runs_cons n ns
  have hread : ∀ s ∈ Node.runs (n :: ns),
      Reads v .conjunction (firstTokens s) (s.all (·.child.eval v)) := by
    intro s hm
    refine reads_conjunction (List.ne_nil_of_mem_splitBy hm) ?_ ?_
    · exact fun k hk => Node.connective_eq_and hs hm hk
    · exact fun k hk => hr k (Node.mem_of_mem_runs hm hk)
  rw [Expr.eval_composite, firstTokens_runs (n :: ns) hrs]
  rw [hrs] at hread ⊢
  exact reads_line (.run (hread _ List.mem_cons_self))
    fun s hm => hread s (List.mem_cons_of_mem _ hm)

/-- The text of an expression whose `or`s stand on top is read as the expression. -/
theorem reads_tokens (hc : e.isComplete) (hl : e.isLaidOut) (ho : e.orsOnTop) :
    Reads v .line (tokens e) (e.eval v) := by
  cases e with
  | composite ns =>
    obtain ⟨hf, hl⟩ := Expr.isLaidOut_composite.mp hl
    obtain ⟨n, ms, rfl, -, hs⟩ := Expr.layoutFault?_eq_none_iff.mp hf
    exact reads_composite hs fun k hk => reads_of_isConjunctive
      (Expr.isComplete_composite.mp hc k hk) (hl k hk) (List.all_eq_true.mp ho k hk)
  | condition _ | group _ | constant _ _ | foreign _ =>
    exact .run (reads_of_isConjunctive hc hl ho)

theorem spells_tokenText (d : Inline) (lead : String) (hc : e.isComplete) (hl : e.isLaidOut) :
    ∀ t ∈ tokens e,
      Spells d.test (d.token .and) (d.token .or) lead t (d.tokenText lead t) := by
  induction e with
  | condition c =>
    obtain ⟨op, ho⟩ := Option.isSome_iff_exists.mp (show c.operator.isSome from hc)
    intro t ht
    rw [List.mem_singleton.mp ht, tokenText, conditionText, ho]
    cases hg : c.grouped with
    | true => exact .grouped ho hg
    | false => exact .bare ho hg
  | composite ns ih =>
    obtain ⟨hf, hl⟩ := Expr.isLaidOut_composite.mp hl
    obtain ⟨n, ms, rfl, -, hs⟩ := Expr.layoutFault?_eq_none_iff.mp hf
    have hc := Expr.isComplete_composite.mp hc
    intro t ht
    rcases mem_firstTokens.mp ht with ht | ⟨m, hm, rfl | ht⟩
    · exact ih n List.mem_cons_self (hc n List.mem_cons_self) (hl n List.mem_cons_self) t ht
    · obtain ⟨c, hm⟩ := Option.isSome_iff_exists.mp (hs m hm)
      rw [hm]
      cases c with
      | and => exact .and
      | or => exact .or
    · have hm := List.mem_cons_of_mem n hm
      exact ih m hm (hc m hm) (hl m hm) t ht
  | group e ih =>
    intro t ht
    rcases List.mem_cons.mp ht with rfl | ht
    · exact .open
    · rcases List.mem_append.mp ht with ht | ht
      · exact ih (Expr.isComplete_group.mp hc) (Expr.isLaidOut_group.mp hl) t ht
      · rw [List.mem_singleton.mp ht]
        exact .close
  | constant b label =>
    intro t ht
    rw [List.mem_singleton.mp ht]
    cases b with
    | true => exact .truth
    | false => exact .falsity
  | foreign w => cases hc

theorem prints_text (d : Inline) (lead : String) (hc : e.isComplete) (hl : e.isLaidOut) :
    Prints d.test (d.token .and) (d.token .or) lead (tokens e) (d.text lead e) :=
  ⟨_, List.forall₂_map_right_iff.mpr (List.forall₂_same.mpr (spells_tokenText d lead hc hl)), rfl⟩

theorem render_prints (d : Inline) (lead : String) (hc : e.isComplete) (hl : e.isLaidOut) :
    ∃ s, d.render lead e = .ok s ∧
      Prints d.test (d.token .and) (d.token .or) lead (tokens e) s := by
  refine ⟨d.text lead e, ?_, prints_text d lead hc hl⟩
  rw [render, Expr.obstacle?_eq_none hc]
  rfl

/-- The Java and the FEEL text of an expression whose `or`s stand on top, read token by token, have
one truth value, and it is true just when some row fires. -/
theorem render_agrees_with_rows (lead : String) (v : Condition → Bool) (hc : e.isComplete)
    (hl : e.isLaidOut) (ho : e.orsOnTop) :
    (∃ s, java.render lead e = .ok s ∧
      Prints Operator.javaTest " && " " || " lead (tokens e) s) ∧
    (∃ s, feel.render lead e = .ok s ∧
      Prints Operator.feelTest " and " " or " lead (tokens e) s) ∧
    (∀ outputs, e.compileOwnRows outputs =
      .ok (e.compiledGroups.map (Expr.row (Expr.parameterNames [e]) outputs))) ∧
    ∀ b, Reads v .line (tokens e) b ↔ b = e.fires v := by
  refine ⟨render_prints java lead hc hl, render_prints feel lead hc hl,
    Expr.compileOwnRows_eq hc, fun b => ?_⟩
  have he : e.eval v = e.fires v := by
    have hn : e ≠ .composite [] := by rintro rfl; cases hl
    rw [Bool.eq_iff_iff]
    exact ⟨Expr.fires_of_eval ho hn, Expr.eval_of_fires hc⟩
  have hr := reads_tokens hc hl ho (v := v)
  rw [he] at hr
  exact ⟨fun hb => hb.unique hr, fun hb => hb ▸ hr⟩

theorem largeOrVip_reads_true : Expr.largeOrVip.isComplete ∧ Expr.largeOrVip.isLaidOut ∧
    Expr.largeOrVip.orsOnTop ∧
    Prints Operator.javaTest " && " " || " "order." (tokens Expr.largeOrVip)
      "(order.amount > 500) || ((order.class.equals(\"vip\")) && true)" ∧
    Prints Operator.feelTest " and " " or " "order." (tokens Expr.largeOrVip)
      "(order.amount > 500) or ((order.class = \"vip\") and true)" ∧
    Reads Expr.onClass .line (tokens Expr.largeOrVip) true := by
  have hc : Expr.largeOrVip.isComplete := by decide
  have hl : Expr.largeOrVip.isLaidOut := by decide
  have ho : Expr.largeOrVip.orsOnTop := by decide
  have hf : Expr.largeOrVip.fires Expr.onClass = true := by decide
  have hj : java.render "order." Expr.largeOrVip =
      .ok "(order.amount > 500) || ((order.class.equals(\"vip\")) && true)" := rfl
  have hg : feel.render "order." Expr.largeOrVip =
      .ok "(order.amount > 500) or ((order.class = \"vip\") and true)" := rfl
  obtain ⟨⟨s, hs, hps⟩, ⟨t, ht, hpt⟩, -, hr⟩ :=
    render_agrees_with_rows "order." Expr.onClass hc hl ho
  obtain rfl : _ = s := Except.ok.inj (hj.symm.trans hs)
  obtain rfl : _ = t := Except.ok.inj (hg.symm.trans ht)
  exact ⟨hc, hl, ho, hps, hpt, (hr true).mpr hf.symm⟩

end RuleTables.Inline
