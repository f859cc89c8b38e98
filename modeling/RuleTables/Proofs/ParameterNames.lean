import RuleTables.Proofs.Acceptance
import RuleTables.Proofs.Columns

namespace RuleTables.Expr

section Names

theorem eraseDups_filter (p : String → Bool) (names : List String) :
    (names.filter p).eraseDups = names.eraseDups.filter p := by
  induction names using List.reverseRecOn with
  | nil => rfl
  | append_singleton ns n ih =>
    rw [List.filter_append, eraseDups_concat]
    cases hp : p n with
    | false =>
      rw [List.filter_singleton, hp, cond_false, List.append_nil, ih]
      split
      · rfl
      · simp [hp]
    | true =>
      rw [List.filter_singleton, hp, cond_true, eraseDups_concat, ih]
      simp only [List.mem_filter, hp, and_true]
      split <;> simp [hp]

theorem eraseDups_append_filter (xs ys : List String) : (xs ++ ys).eraseDups =
    xs.eraseDups ++ ys.eraseDups.filter (· ∉ xs.eraseDups) := by
  rw [List.eraseDups_append, List.removeAll, eraseDups_filter]
  refine congrArg _ (List.filter_congr fun n _ => ?_)
  simp [List.mem_eraseDups]

theorem pairwise_idxOf_eraseDups (names : List String) :
    names.eraseDups.Pairwise fun m n => names.idxOf m < names.idxOf n := by
  induction names using List.reverseRecOn with
  | nil => exact .nil
  | append_singleton ns n ih =>
    have hi {m : String} (hm : m ∈ ns.eraseDups) : (ns ++ [n]).idxOf m = ns.idxOf m :=
      List.idxOf_append_of_mem (List.mem_eraseDups.mp hm)
    have hs : ns.eraseDups.Pairwise fun m k => (ns ++ [n]).idxOf m < (ns ++ [n]).idxOf k := by
      refine ih.imp_of_mem fun hm hk h => ?_
      rw [hi hm, hi hk]
      exact h
    rw [eraseDups_concat]
    split
    · exact hs
    · next hn =>
      refine List.pairwise_append.mpr ⟨hs, List.pairwise_singleton _ n, fun m hm k hk => ?_⟩
      obtain rfl := List.mem_singleton.mp hk
      rw [hi hm, List.idxOf_append_of_notMem hn]
      exact Nat.lt_add_right _ (List.idxOf_lt_length_of_mem (List.mem_eraseDups.mp hm))

end Names

section Found

variable {e : Expr} {xs : List Expr}

theorem mem_leaves_iff {c : Condition} : c ∈ e.leaves ↔ e.Reaches (condition c) := by
  induction e with
  | condition d => simp [leaves]
  | composite ns ih =>
    rw [leaves, nodeLeaves_eq_flatMap, List.mem_flatMap, reaches_composite_iff]
    simp only [reduceCtorEq, false_or]
    exact exists_congr fun n => and_congr_right (ih n)
  | group e ih => simpa [leaves] using ih
  | constant b label => simp [leaves]
  | foreign v => simp [leaves]

/-- What is found in expressions: the parameters of the conditions that are reached in them, each
of them once, in the order in which they first come. -/
structure AreFound (xs : List Expr) (names : List String) : Prop where
  nodup : names.Nodup
  mem_iff : ∀ n, n ∈ names ↔ ∃ e ∈ xs, ∃ c, e.Reaches (condition c) ∧ c.parameter = n
  ordered : names.Pairwise fun m n => (namesIn xs).idxOf m < (namesIn xs).idxOf n

theorem areFound_parameterNames (xs : List Expr) : AreFound xs (parameterNames xs) := by
  rw [parameterNames_eq]
  refine ⟨nodup_eraseDups _, fun n => ?_, pairwise_idxOf_eraseDups _⟩
  rw [List.mem_eraseDups, mem_namesIn]
  simp only [List.mem_flatMap, mem_leaves_iff]
  constructor
  · rintro ⟨c, ⟨e, he, hr⟩, hc⟩
    exact ⟨e, he, c, hr, hc⟩
  · rintro ⟨e, he, c, hr, hc⟩
    exact ⟨c, ⟨e, he, hr⟩, hc⟩

theorem parameterNames_append (xs ys : List Expr) : parameterNames (xs ++ ys) =
    parameterNames xs ++ (parameterNames ys).filter (· ∉ parameterNames xs) := by
  simp only [parameterNames_eq]
  rw [namesIn, List.flatMap_append, List.map_append]
  exact eraseDups_append_filter (namesIn xs) (namesIn ys)

theorem parameters_eq_ok (h : ∀ e ∈ xs, ∀ v, ¬ e.Reaches (foreign v)) :
    parameters xs = .ok (parameterNames xs) := by
  have hf : xs.findSome? foreign? = none :=
    List.findSome?_eq_none_iff.mpr fun e he => foreign?_eq_none_iff.mpr (h e he)
  rw [parameters, hf]
  rfl

end Found

section Bundles

variable {e f : Expr} {xs ys : List Expr}

/-- The second list is the first one with one more group in it, around any part of its expressions,
or with a stretch of it joined into one composite, whatever the connectives. As expressions can be
taken out of what is around them and be put back, this goes to any depth. -/
inductive Bundles : List Expr → List Expr → Prop
  | wrap {e f : Expr} (before after : List Expr) (h : Wraps e f) :
    Bundles (before ++ e :: after) (before ++ f :: after)
  | join (before after : List Expr) (ns : List (Node Expr)) :
    Bundles (before ++ ns.map (·.child) ++ after) (before ++ composite ns :: after)

abbrev Rebundles : List Expr → List Expr → Prop := Relation.EqvGen Bundles

theorem Wraps.leaves_eq (h : Wraps e f) : f.leaves = e.leaves := by
  induction h with
  | around e => rfl
  | inGroup h ih => exact ih
  | inNode before after c h ih =>
    simp only [leaves, nodeLeaves_eq_flatMap, List.flatMap_append, List.flatMap_cons, ih]

theorem Wraps.foreign?_eq (h : Wraps e f) : f.foreign? = e.foreign? := by
  induction h with
  | around e => rfl
  | inGroup h ih => exact ih
  | inNode before after c h ih =>
    simp only [foreign?, nodesForeign?_eq_findSome?, List.findSome?_append, List.findSome?_cons, ih]

theorem Bundles.leaves_eq (h : Bundles xs ys) : ys.flatMap leaves = xs.flatMap leaves := by
  cases h with
  | wrap before after h => simp only [List.flatMap_append, List.flatMap_cons, h.leaves_eq]
  | join before after ns =>
    simp only [List.flatMap_append, List.flatMap_cons, List.flatMap_map, leaves,
      nodeLeaves_eq_flatMap, List.append_assoc]

theorem Bundles.foreign?_eq (h : Bundles xs ys) :
    ys.findSome? foreign? = xs.findSome? foreign? := by
  cases h with
  | wrap before after h => simp only [List.findSome?_append, List.findSome?_cons, h.foreign?_eq]
  | join before after ns =>
    rw [List.findSome?_append, List.findSome?_append, List.findSome?_append, List.findSome?_cons,
      List.findSome?_map, foreign?, nodesForeign?_eq_findSome?, Option.or_assoc]
    cases h : ns.findSome? (·.child.foreign?) <;> simp [Function.comp_def, h]

theorem Bundles.parameters_eq (h : Bundles xs ys) : parameters ys = parameters xs := by
  rw [parameters, parameters, parameterNames, parameterNames, h.leaves_eq, h.foreign?_eq]

theorem Rebundles.parameters_eq (h : Rebundles xs ys) : parameters ys = parameters xs := by
  induction h with
  | rel xs ys h => exact h.parameters_eq
  | refl xs => rfl
  | symm xs ys _ ih => exact ih.symm
  | trans xs ys zs _ _ ih ih' => exact ih'.trans ih

end Bundles

/-- The parameters found in two lists of expressions, one behind the other, are those of the first
list and then those of the second one that are new. They are the parameters of the conditions, each
once and where it first comes, however the expressions are bundled. -/
theorem parameters_found {xs ys : List Expr} (h : ∀ e ∈ xs ++ ys, ∀ v, ¬ e.Reaches (foreign v)) :
    ∃ ps qs, parameters xs = .ok ps ∧ parameters ys = .ok qs ∧
      parameters (xs ++ ys) = .ok (ps ++ qs.filter (· ∉ ps)) ∧
      AreFound (xs ++ ys) (ps ++ qs.filter (· ∉ ps)) ∧
      ∀ zs, Rebundles (xs ++ ys) zs → parameters zs = parameters (xs ++ ys) := by
  obtain ⟨hx, hy⟩ := List.forall_mem_append.mp h
  refine ⟨_, _, parameters_eq_ok hx, parameters_eq_ok hy, ?_, ?_, fun zs hz => hz.parameters_eq⟩
  · rw [← parameterNames_append]
    exact parameters_eq_ok h
  · rw [← parameterNames_append]
    exact areFound_parameterNames (xs ++ ys)

def rushThenGold : List Expr :=
  [condition (.equals "rush" "true"), group (condition (.equals "class" "gold"))]

def largeVipRushGold : Expr :=
  composite [⟨some .or, largeOrVip⟩, ⟨none, condition (.equals "rush" "true")⟩,
    ⟨some .and, condition (.equals "class" "gold")⟩]

theorem largeVipRushGold_found :
    (∀ e ∈ [largeOrVip] ++ rushThenGold, ∀ v, ¬ e.Reaches (foreign v)) ∧
    parameters [largeOrVip] = .ok ["amount", "class"] ∧
    parameters rushThenGold = .ok ["rush", "class"] ∧
    parameters ([largeOrVip] ++ rushThenGold) = .ok ["amount", "class", "rush"] ∧
    parameters [largeVipRushGold] = .ok ["amount", "class", "rush"] := by
  have hf : ∀ e ∈ [largeOrVip] ++ rushThenGold, ∀ v, ¬ e.Reaches (foreign v) := by
    simp [largeOrVip, rushThenGold, alwaysTrue]
  have hz : Rebundles ([largeOrVip] ++ rushThenGold) [largeVipRushGold] := by
    have hw : Bundles [largeOrVip, condition (.equals "rush" "true"),
        condition (.equals "class" "gold")] ([largeOrVip] ++ rushThenGold) :=
      .wrap [largeOrVip, condition (.equals "rush" "true")] [] (.around _)
    have hj : Bundles [largeOrVip, condition (.equals "rush" "true"),
        condition (.equals "class" "gold")] [largeVipRushGold] :=
      .join [] [] [⟨some .or, largeOrVip⟩, ⟨none, condition (.equals "rush" "true")⟩,
        ⟨some .and, condition (.equals "class" "gold")⟩]
    exact .trans _ _ _ (.symm _ _ (.rel _ _ hw)) (.rel _ _ hj)
  have hx : parameters [largeOrVip] = .ok ["amount", "class"] := rfl
  have hy : parameters rushThenGold = .ok ["rush", "class"] := rfl
  obtain ⟨ps, qs, hp, hq, hr, -, hb⟩ := parameters_found hf
  rw [hx] at hp
  rw [hy] at hq
  obtain rfl := Except.ok.inj hp
  obtain rfl := Except.ok.inj hq
  exact ⟨hf, hx, hy, hr, (hb _ hz).trans hr⟩

end RuleTables.Expr
