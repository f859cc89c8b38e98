import Mathlib.Data.List.Induction
import Mathlib.Data.List.ModifyLast
import RuleTables.Expr.Record
import RuleTables.Proofs.Shape

namespace RuleTables

structure Place where
  condition : Condition
  /-- The position and the connective of each composite entry around the condition, the innermost
  first. -/
  entries : List (Nat × Option Connective)
  /-- How many groups around the condition begin with it. -/
  opened : Nat
  /-- How many groups around the condition end with it. -/
  closed : Nat

namespace Place

def inEntry (position : Nat) (connective : Option Connective) (p : Place) : Place :=
  { p with entries := p.entries ++ [(position, connective)] }

def opening (p : Place) : Place := { p with opened := p.opened + 1 }

def closing (p : Place) : Place := { p with closed := p.closed + 1 }

/-- The connective of the innermost entry that is not the first of its composite. -/
def connective (outer : Option Connective) (p : Place) : Option Connective :=
  ((p.entries.find? (·.1 ≠ 0)).map (·.2)).getD outer

/-- One mark for each group that begins here, in front of the mark of the condition. -/
def openMark (p : Place) : String :=
  String.ofList (List.replicate p.opened '(' ++ [if p.condition.grouped then '(' else ' '])

def closeMark (p : Place) : String :=
  String.ofList ((if p.condition.grouped then ')' else ' ') :: List.replicate p.closed ')')

/-- The record of the condition, in an expression that is joined by `outer`. -/
def record (outer : Option Connective) (p : Place) : FlatRecord :=
  ⟨((p.connective outer).map (·.symbol)).getD "", p.openMark, p.condition.parameter,
    (p.condition.operator.map (·.symbol)).getD "", p.condition.value, p.closeMark⟩

end Place

namespace Expr

mutual

def places : Expr → List Place
  | condition c => [⟨c, [], 0, 0⟩]
  | composite ns => placesFrom 0 ns
  | group e => ((places e).modifyHead .opening).modifyLast .closing
  | constant _ _ => []
  | foreign _ => []

def placesFrom (position : Nat) : List (Node Expr) → List Place
  | [] => []
  | ⟨c, e⟩ :: ns => (places e).map (.inEntry position c) ++ placesFrom (position + 1) ns

end

end Expr

theorem modifyLast_cons_cons {α : Type} (f : α → α) (x y : α) (xs : List α) :
    (x :: y :: xs).modifyLast f = x :: (y :: xs).modifyLast f :=
  List.modifyLast_append_of_right_ne_nil f [x] (y :: xs) (List.cons_ne_nil y xs)

theorem map_modifyLast {α β : Type} (f : α → α) (g : β → β) (h : α → β)
    (hc : ∀ a, h (f a) = g (h a)) (xs : List α) :
    (xs.modifyLast f).map h = (xs.map h).modifyLast g := by
  induction xs using List.reverseRecOn with
  | nil => rfl
  | append_singleton xs x => simp [List.modifyLast_concat, hc]

theorem map_modifyHead {α β : Type} (f : α → α) (g : β → β) (h : α → β)
    (hc : ∀ a, h (f a) = g (h a)) (xs : List α) :
    (xs.modifyHead f).map h = (xs.map h).modifyHead g := by
  cases xs with
  | nil => rfl
  | cons x xs => simp [hc]

theorem modifyLast_id {α : Type} (xs : List α) : xs.modifyLast id = xs := by
  induction xs using List.reverseRecOn with
  | nil => rfl
  | append_singleton xs x => rw [List.modifyLast_concat, id]

namespace FlatRecord

def opening (r : FlatRecord) : FlatRecord := { r with openMark := "(" ++ r.openMark }

def closing (r : FlatRecord) : FlatRecord := { r with closeMark := r.closeMark ++ ")" }

theorem closeLast_eq_modifyLast (rs : List FlatRecord) : closeLast rs = rs.modifyLast closing := by
  induction rs with
  | nil => rfl
  | cons r rs ih =>
    cases rs with
    | nil => rfl
    | cons s rs => rw [closeLast, ih, modifyLast_cons_cons]

theorem enclose_eq (rs : List FlatRecord) :
    enclose rs = (rs.modifyHead opening).modifyLast closing := by
  cases rs with
  | nil => rfl
  | cons r rs =>
    rw [enclose, closeLast_eq_modifyLast, List.modifyHead_cons]
    rfl

end FlatRecord

namespace Place

theorem openMark_opening (p : Place) : p.opening.openMark = "(" ++ p.openMark := by
  rw [← String.toList_inj, String.toList_append, openMark, openMark, String.toList_ofList]
  simp only [opening, List.replicate_succ, List.cons_append, String.toList_ofList]
  rfl

theorem closeMark_closing (p : Place) : p.closing.closeMark = p.closeMark ++ ")" := by
  rw [← String.toList_inj, String.toList_append, closeMark, closeMark, String.toList_ofList]
  simp only [closing, List.replicate_succ', String.toList_ofList]
  rfl

theorem record_opening (outer : Option Connective) (p : Place) :
    p.opening.record outer = (p.record outer).opening := by
  rw [record, openMark_opening]
  rfl

theorem record_closing (outer : Option Connective) (p : Place) :
    p.closing.record outer = (p.record outer).closing := by
  rw [record, closeMark_closing]
  rfl

theorem connective_inEntry_zero (outer c : Option Connective) (p : Place) :
    (p.inEntry 0 c).connective outer = p.connective outer := by
  simp [connective, inEntry, List.find?_append]

theorem connective_inEntry_succ (outer c : Option Connective) (k : Nat) (p : Place) :
    (p.inEntry (k + 1) c).connective outer = p.connective c := by
  rw [connective, connective, inEntry, List.find?_append]
  cases p.entries.find? (·.1 ≠ 0) <;> simp

theorem record_inEntry_zero (outer c : Option Connective) (p : Place) :
    (p.inEntry 0 c).record outer = p.record outer := by
  rw [record, connective_inEntry_zero]
  rfl

theorem record_inEntry_succ (outer c : Option Connective) (k : Nat) (p : Place) :
    (p.inEntry (k + 1) c).record outer = p.record c := by
  rw [record, connective_inEntry_succ]
  rfl

end Place

namespace FlatRecord

theorem ofLater_eq_map {ns : List (Node Expr)}
    (h : ∀ n ∈ ns, ∀ c, ofExpr c n.child = n.child.places.map (Place.record c)) (k : Nat)
    (outer : Option Connective) :
    ofLater ns = (Expr.placesFrom (k + 1) ns).map (Place.record outer) := by
  induction ns generalizing k with
  | nil => rfl
  | cons n ns ih =>
    rw [ofLater, Expr.placesFrom, h n List.mem_cons_self,
      ih (fun m hm => h m (List.mem_cons_of_mem _ hm)) (k + 1), List.map_append, List.map_map]
    congr 2
    funext p
    exact (Place.record_inEntry_succ outer n.connective k p).symm

/-- Each condition gives one record, which its place describes. -/
theorem ofExpr_eq_map (outer : Option Connective) (e : Expr) :
    ofExpr outer e = e.places.map (Place.record outer) := by
  induction e generalizing outer with
  | condition c =>
    cases hg : c.grouped <;>
      simp [ofExpr, Expr.places, ofCondition, Place.record, Place.connective, Place.openMark,
        Place.closeMark, hg]
  | composite ns ih =>
    cases ns with
    | nil => rfl
    | cons n ns =>
      rw [ofExpr, ofFirst, Expr.places, Expr.placesFrom, ih n List.mem_cons_self,
        ofLater_eq_map (fun m hm c => ih m (List.mem_cons_of_mem _ hm) c) 0 outer,
        List.map_append, List.map_map]
      congr 2
      funext p
      exact (Place.record_inEntry_zero outer n.connective p).symm
  | group e ih =>
    rw [ofExpr, ih, enclose_eq, Expr.places,
      map_modifyLast Place.closing closing _ (Place.record_closing outer),
      map_modifyHead Place.opening opening _ (Place.record_opening outer)]
  | constant b label => rfl
  | foreign v => rfl

end FlatRecord

namespace Expr

theorem placesFrom_conditions {ns : List (Node Expr)}
    (h : ∀ n ∈ ns, n.child.places.map (·.condition) = n.child.leaves) (k : Nat) :
    (placesFrom k ns).map (·.condition) = ns.flatMap (·.child.leaves) := by
  induction ns generalizing k with
  | nil => rfl
  | cons n ns ih =>
    rw [placesFrom, List.map_append, List.map_map, ih fun m hm => h m (List.mem_cons_of_mem _ hm),
      List.flatMap_cons, ← h n List.mem_cons_self]
    rfl

theorem places_conditions (e : Expr) : e.places.map (·.condition) = e.leaves := by
  induction e with
  | condition c => rfl
  | composite ns ih => rw [places, placesFrom_conditions ih, leaves, nodeLeaves_eq_flatMap]
  | group e ih =>
    rw [places, leaves, ← ih, map_modifyLast Place.closing id _ fun _ => rfl, modifyLast_id,
      map_modifyHead Place.opening id _ fun _ => rfl, List.modifyHead_id, id]
  | constant b label => rfl
  | foreign v => rfl

end Expr

end RuleTables
