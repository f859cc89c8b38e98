import RuleTables.Expr.Inline
import RuleTables.Expr.Readable
import RuleTables.Expr.Record
import RuleTables.Expr.Tree
import RuleTables.Proofs.Alternatives
import RuleTables.Proofs.Validity

namespace RuleTables

/-- The operator, to ask the catalog about it. -/
def Condition.lookUp (c : Condition) : Except Fault Operator :=
  match c.operator with
  | some op => .ok op
  | none => .error .noOperator

/-- The findings about a condition, for which the catalog is asked about its operator. -/
def Condition.inspect (c : Condition) : Except Fault (List Finding) := do
  let name := if Text.allBlank c.parameter then [.noParameter] else []
  if c.operator.isNone then return name ++ [.noOperator]
  let op ← c.lookUp
  let kind := if op.supports c.kind then [] else [.wrongKind op c.kind]
  let value := if op.needsValue && Text.allBlank c.value then [.noValue op] else []
  return name ++ (kind ++ value)

namespace Expr

mutual

def inspectAll : Expr → Except Fault (List Finding)
  | condition c => c.inspect
  | composite ns => inspectFirst ns
  | group e => inspectAll e
  | constant _ _ => .ok []
  | foreign v => .ok [.unsupported v.typeName]

def inspectFirst : List (Node Expr) → Except Fault (List Finding)
  | [] => .ok [.layout .empty]
  | ⟨c, e⟩ :: ns => do
    let leading := (c.map fun c => .layout (.leading c)).toList
    return leading ++ (← inspectAll e) ++ (← inspectLater 1 ns)

def inspectLater (position : Nat) : List (Node Expr) → Except Fault (List Finding)
  | [] => .ok []
  | ⟨c, e⟩ :: ns => do
    let missing := if c.isNone then [.layout (.missing position)] else []
    return missing ++ (← inspectAll e) ++ (← inspectLater (position + 1) ns)

end

def inspect (e : Expr) : Except Fault Findings :=
  e.inspectAll.map .ofList

/-- No stage fails on the expression, but for documents that cannot be written. -/
structure PassesAll (e : Expr) : Prop where
  rows : ∀ columns outputs, ∃ rows, e.compileRows columns outputs = .ok rows
  ownRows : ∀ outputs, ∃ rows, e.compileOwnRows outputs = .ok rows
  java : ∀ lead, ∃ s, Inline.java.render lead e = .ok s
  feel : ∀ lead, ∃ s, Inline.feel.render lead e = .ok s
  readable : ∃ s, e.readable = .ok s
  records : ∃ s, e.encodeText = .ok s
  base64 : ∃ s, e.encodeBase64 = .ok s
  tree : ∃ v, e.toTree = .ok v
  parameters : ∃ names, Expr.parameters [e] = .ok names
  table : ∀ l, ∃ t, Table.ofExpr e l = .ok t
  document : ∀ l f, (Generation.ofExpr e l).answer = .error f → f.kind = .generation

theorem guarded_obstacle {α : Type} {e : Expr} (h : e.isComplete) (missing : Fault) (a : α) :
    ∃ b, guarded (e.obstacle? missing) a = .ok b :=
  ⟨a, by rw [obstacle?_eq_none h]; rfl⟩

theorem passesAll_of_isComplete {e : Expr} (h : e.isComplete) : e.PassesAll where
  rows columns outputs := ⟨_, compileRows_eq h columns outputs⟩
  ownRows outputs := ⟨_, compileOwnRows_eq h outputs⟩
  java lead := guarded_obstacle h .noOperator _
  feel lead := guarded_obstacle h .noOperator _
  readable := guarded_obstacle h .noOperator _
  records := guarded_obstacle h .noOperator _
  base64 := guarded_obstacle h .noOperator _
  tree := guarded_obstacle h .unnamedOperator _
  parameters := by
    rw [parameters_singleton, foreign?_eq_none h]
    exact ⟨_, rfl⟩
  table l := ⟨_, Table.ofExpr_eq_ok h⟩
  document l f hf := by
    rw [Generation.ofExpr, Table.ofExpr_eq_ok h, Generation.answer_ofCompiled] at hf
    obtain ⟨text, ht⟩ | ⟨g, hg, hk⟩ := Generation.compiledText_cases _ l
    · cases ht.symm.trans hf
    · cases hg.symm.trans hf
      exact hk

end Expr

end RuleTables
