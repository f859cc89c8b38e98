import Mathlib.Algebra.GroupWithZero.Nat
import RuleTables.Proofs.RecordRoundTrip

namespace RuleTables

namespace Expr

mutual

/-- The conditions from left to right, each with the number of groups around it. -/
def nestedLeaves (groups : Nat) : Expr → List (Condition × Nat)
  | condition c => [(c, groups)]
  | composite ns => nodesNestedLeaves groups ns
  | group e => nestedLeaves (groups + 1) e
  | constant _ _ => []
  | foreign _ => []

def nodesNestedLeaves (groups : Nat) : List (Node Expr) → List (Condition × Nat)
  | [] => []
  | ⟨_, e⟩ :: ns => nestedLeaves groups e ++ nodesNestedLeaves groups ns

end

theorem nodesNestedLeaves_eq_flatMap (groups : Nat) (ns : List (Node Expr)) :
    nodesNestedLeaves groups ns = ns.flatMap (·.child.nestedLeaves groups) := by
  induction ns with
  | nil => rfl
  | cons n ns ih => rw [nodesNestedLeaves, ih, List.flatMap_cons]

end Expr

namespace FlatRecord

def opens (r : FlatRecord) : Nat := r.openMark.toList.count '('

def closes (r : FlatRecord) : Nat := r.closeMark.toList.count ')'

def mark (r : FlatRecord) : List Char := r.openMark.toList ++ r.closeMark.toList

def marks (rs : List FlatRecord) : List Char := rs.flatMap mark

/-- The record of a condition, whatever its connective. What opens does not close. -/
structure IsOf (c : Condition) (r : FlatRecord) : Prop where
  parameter : r.parameter = c.parameter
  symbol : r.symbol = (c.operator.map (·.symbol)).getD ""
  value : r.value = c.value
  openMark : ')' ∉ r.openMark.toList
  closeMark : '(' ∉ r.closeMark.toList

/-- Records that are read from a depth to another one: at each of them as many marks are open as its
condition has groups around it and marks of its own. -/
inductive Nests : Nat → List (Condition × Nat) → List FlatRecord → Nat → Prop
  | nil (d : Nat) : Nests d [] [] d
  | cons {d m k groups : Nat} {c : Condition} {r : FlatRecord} {ls : List (Condition × Nat)}
      {rs : List FlatRecord} (hr : r.IsOf c) (ho : d + r.opens = groups + c.grouped.toNat)
      (hc : d + r.opens = m + r.closes) (h : Nests m ls rs k) :
      Nests d ((c, groups) :: ls) (r :: rs) k

variable {d m k groups : Nat} {c : Condition} {r : FlatRecord} {rs qs : List FlatRecord}
  {ls ks : List (Condition × Nat)}

section Marking

theorem opens_opening (r : FlatRecord) : r.opening.opens = r.opens + 1 := by
  simp [opening, opens]

theorem closes_closing (r : FlatRecord) : r.closing.closes = r.closes + 1 := by
  simp [closing, closes]

theorem IsOf.opening (h : r.IsOf c) : r.opening.IsOf c :=
  { h with openMark := by simpa [FlatRecord.opening] using h.openMark }

theorem IsOf.closing (h : r.IsOf c) : r.closing.IsOf c :=
  { h with closeMark := by simpa [FlatRecord.closing] using h.closeMark }

end Marking

namespace Nests

theorem append (h : Nests d ls rs m) (h' : Nests m ks qs k) : Nests d (ls ++ ks) (rs ++ qs) k := by
  induction h with
  | nil d => exact h'
  | cons hr ho hc _ ih => exact .cons hr ho hc (ih h')

theorem opening (h : Nests (d + 1) ls (r :: rs) k) : Nests d ls (r.opening :: rs) k := by
  cases h with
  | cons hr ho hc h =>
    refine .cons hr.opening ?_ ?_ h <;> rw [opens_opening]
    · omega
    · change d + (r.opens + 1) = _ + r.closes
      omega

theorem closing (h : Nests d ls rs (k + 1)) (hn : rs ≠ []) : Nests d ls (closeLast rs) k := by
  induction rs generalizing d ls with
  | nil => exact absurd rfl hn
  | cons r rs ih =>
    cases h with
    | cons hr ho hc h =>
      cases rs with
      | nil =>
        cases h
        refine .cons hr.closing ho ?_ (.nil k)
        change d + r.opens = k + r.closing.closes
        rw [closes_closing]
        omega
      | cons s rs => exact .cons hr ho hc (ih h (List.cons_ne_nil s rs))

theorem enclose (h : Nests (d + 1) ls rs (d + 1)) : Nests d ls (enclose rs) d := by
  cases rs with
  | nil =>
    cases h
    exact .nil d
  | cons r rs => exact h.opening.closing (List.cons_ne_nil _ rs)

end Nests

theorem nests_ofLater {ns : List (Node Expr)}
    (h : ∀ n ∈ ns, ∀ c, Nests groups (n.child.nestedLeaves groups) (ofExpr c n.child) groups) :
    Nests groups (ns.flatMap (·.child.nestedLeaves groups)) (ofLater ns) groups := by
  induction ns with
  | nil => exact .nil groups
  | cons n ns ih =>
    obtain ⟨hn, hs⟩ := List.forall_mem_cons.mp h
    exact (hn n.connective).append (ih hs)

theorem nests_ofExpr (e : Expr) (groups : Nat) (outer : Option Connective) :
    Nests groups (e.nestedLeaves groups) (ofExpr outer e) groups := by
  induction e generalizing groups outer with
  | condition c =>
    refine .cons ⟨rfl, rfl, rfl, ?_, ?_⟩ ?_ ?_ (.nil groups) <;>
      cases hg : c.grouped <;> simp [ofCondition, opens, closes, hg]
  | composite ns ih =>
    rw [Expr.nestedLeaves, Expr.nodesNestedLeaves_eq_flatMap]
    cases ns with
    | nil => exact .nil groups
    | cons n ns =>
      obtain ⟨hn, hs⟩ := List.forall_mem_cons.mp ih
      exact (hn groups outer).append (nests_ofLater fun m hm => hs m hm groups)
  | group e ih => exact (ih (groups + 1) outer).enclose
  | constant b label => exact .nil groups
  | foreign v => exact .nil groups

section Counting

def opened (rs : List FlatRecord) : Nat := (rs.map opens).sum

def closed (rs : List FlatRecord) : Nat := (rs.map closes).sum

@[simp] theorem opened_nil : opened [] = 0 := rfl

@[simp] theorem closed_nil : closed [] = 0 := rfl

@[simp] theorem marks_cons (r : FlatRecord) (rs : List FlatRecord) :
    marks (r :: rs) = r.mark ++ marks rs := List.flatMap_cons

@[simp] theorem opened_cons (r : FlatRecord) (rs : List FlatRecord) :
    opened (r :: rs) = r.opens + opened rs := List.sum_cons

@[simp] theorem closed_cons (r : FlatRecord) (rs : List FlatRecord) :
    closed (r :: rs) = r.closes + closed rs := List.sum_cons

/-- Parentheses that match: none closes before one opens, and none stays open. -/
def IsBalanced (cs : List Char) : Prop :=
  cs.count '(' = cs.count ')' ∧ ∀ t, t <+: cs → t.count ')' ≤ t.count '('

theorem prefix_append_cases {α : Type} {t xs ys : List α} (h : t <+: xs ++ ys) :
    t <+: xs ∨ ∃ u, t = xs ++ u ∧ u <+: ys := by
  obtain ⟨w, hw⟩ := h
  rcases List.append_eq_append_iff.mp hw with ⟨u, hu, -⟩ | ⟨u, hu, hv⟩
  · exact .inl ⟨u, hu.symm⟩
  · exact .inr ⟨u, hu, ⟨w, hv.symm⟩⟩

theorem IsOf.count_mark (hr : r.IsOf c) :
    r.mark.count '(' = r.opens ∧ r.mark.count ')' = r.closes := by
  have ho : r.openMark.toList.count ')' = 0 := List.count_eq_zero.mpr hr.openMark
  have hc : r.closeMark.toList.count '(' = 0 := List.count_eq_zero.mpr hr.closeMark
  simp [mark, opens, closes, ho, hc]

theorem IsOf.count_prefix (hr : r.IsOf c) (hc : r.closes ≤ d + r.opens) {t : List Char}
    (ht : t <+: r.mark) : t.count ')' ≤ d + t.count '(' := by
  rcases prefix_append_cases ht with ht | ⟨u, rfl, hu⟩
  · have hz : t.count ')' = 0 := List.count_eq_zero.mpr fun hm => hr.openMark (ht.subset hm)
    omega
  · have hz : r.openMark.toList.count ')' = 0 := List.count_eq_zero.mpr hr.openMark
    have hle : u.count ')' ≤ r.closes := hu.sublist.count_le _
    rw [List.count_append, List.count_append, hz]
    change 0 + u.count ')' ≤ d + (r.opens + u.count '(')
    omega

namespace Nests

theorem depth (h : Nests d ls rs k) {i : Nat} (hi : ls[i]? = some (c, groups)) :
    d + opened (rs.take (i + 1)) = groups + c.grouped.toNat + closed (rs.take i) := by
  induction h generalizing i with
  | nil d => cases hi
  | cons hr ho hc h ih =>
    cases i with
    | zero =>
      cases hi
      simpa using ho
    | succ i =>
      have := ih hi
      rw [List.take_succ_cons, List.take_succ_cons, opened_cons, closed_cons]
      omega

theorem count_marks (h : Nests d ls rs k) :
    d + (marks rs).count '(' = k + (marks rs).count ')' := by
  induction h with
  | nil d => rfl
  | cons hr ho hc h ih =>
    rw [marks_cons, List.count_append, List.count_append, hr.count_mark.1, hr.count_mark.2]
    omega

theorem count_prefix (h : Nests d ls rs k) {t : List Char} (ht : t <+: marks rs) :
    t.count ')' ≤ d + t.count '(' := by
  induction h generalizing t with
  | nil d =>
    rw [List.prefix_nil.mp ht]
    exact Nat.zero_le _
  | @cons d m k groups c r ls rs hr ho hc h ih =>
    rw [marks_cons] at ht
    rcases prefix_append_cases ht with ht | ⟨u, rfl, hu⟩
    · exact hr.count_prefix (by omega) ht
    · have := ih hu
      rw [List.count_append, List.count_append, hr.count_mark.1, hr.count_mark.2]
      omega

theorem isBalanced (h : Nests 0 ls rs 0) : IsBalanced (marks rs) :=
  ⟨by simpa using h.count_marks, fun t ht => by simpa using h.count_prefix ht⟩

theorem forall₂ (h : Nests d ls rs k) : List.Forall₂ IsOf (ls.map (·.1)) rs := by
  induction h with
  | nil d => exact .nil
  | cons hr _ _ _ ih => exact .cons hr ih

end Nests

end Counting

end FlatRecord

namespace Expr

variable {e : Expr}

theorem nestedLeaves_conditions (e : Expr) (groups : Nat) :
    (e.nestedLeaves groups).map (·.1) = e.leaves := by
  induction e generalizing groups with
  | condition c => rfl
  | composite ns ih =>
    rw [nestedLeaves, nodesNestedLeaves_eq_flatMap, leaves, nodeLeaves_eq_flatMap, List.map_flatMap]
    exact List.flatMap_congr fun n hn => ih n hn groups
  | group e ih => exact ih (groups + 1)
  | constant b label => rfl
  | foreign v => rfl

theorem records_eq_ofExpr (h : e.leaves ≠ []) : e.records = FlatRecord.ofExpr none e := by
  have hp : e.places ≠ [] := fun hp => h (by rw [← places_conditions, hp]; rfl)
  rw [(records_of_places hp).1, FlatRecord.ofExpr_eq_map]

/-- The records of an expression are those of its conditions. What is opened up to a condition, less
what is closed before it, are the groups around it and its own parentheses; and the marks of all
records are balanced. -/
theorem encodeRecords_nested (hc : e.isComplete) (hl : e.leaves ≠ []) :
    (e.nestedLeaves 0).map (·.1) = e.leaves ∧ ∃ rs, e.encodeRecords = .ok rs ∧
      List.Forall₂ FlatRecord.IsOf e.leaves rs ∧
      (∀ i c groups, (e.nestedLeaves 0)[i]? = some (c, groups) →
        FlatRecord.opened (rs.take (i + 1)) =
          groups + c.grouped.toNat + FlatRecord.closed (rs.take i)) ∧
      FlatRecord.IsBalanced (FlatRecord.marks rs) := by
  have hn := FlatRecord.nests_ofExpr e 0 none
  have hr : e.encodeRecords = .ok (FlatRecord.ofExpr none e) := by
    rw [encodeRecords, obstacle?_eq_none hc, records_eq_ofExpr hl]
    rfl
  refine ⟨nestedLeaves_conditions e 0, _, hr, ?_, fun i c groups hi => ?_, hn.isBalanced⟩
  · exact nestedLeaves_conditions e 0 ▸ hn.forall₂
  · simpa using hn.depth hi

def rushOrGrouped : Expr :=
  group (composite [⟨none, alwaysTrue⟩,
    ⟨some .and, condition (.of "rush" (some .equals) "true" none false)⟩,
    ⟨some .or, group (group (condition (.greaterThan "amount" "500")))⟩])

theorem rushOrGrouped_nested : rushOrGrouped.isComplete ∧ rushOrGrouped.leaves ≠ [] ∧
    ∃ rs, rushOrGrouped.encodeRecords = .ok rs ∧
      rs.map (fun r => (r.openMark, r.closeMark)) = [("( ", " "), ("(((", "))))")] ∧
      FlatRecord.opened (rs.take 2) = 3 + 1 + FlatRecord.closed (rs.take 1) ∧
      FlatRecord.IsBalanced (FlatRecord.marks rs) := by
  have hc : rushOrGrouped.isComplete := by decide
  have hl : rushOrGrouped.leaves ≠ [] := List.cons_ne_nil _ _
  obtain ⟨-, rs, hr, -, hd, hb⟩ := encodeRecords_nested hc hl
  refine ⟨hc, hl, rs, hr, ?_, hd 1 _ 3 rfl, hb⟩
  cases hr
  decide

end Expr

end RuleTables
