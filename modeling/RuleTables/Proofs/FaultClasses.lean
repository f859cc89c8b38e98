import RuleTables.Proofs.Echo

namespace RuleTables

section Handling

variable {α β : Type}

theorem TreeFault.details_names (f : TreeFault) :
    f.details ≠ [] ∧ ∀ d ∈ f.details, d.1 ∈ ["node", "operator", "value"] := by
  cases f <;> simp [details]

def TreeFault.report (f : TreeFault) : Report :=
  (Fault.tree f).report

def reported (x : Except TreeFault α) : Except Report α :=
  x.mapError TreeFault.report

def rescue (handled : FaultClass → Bool) (next : Except Report α) :
    Except Report α → Except Report α
  | .ok a => .ok a
  | .error r => if handled r.kind then next else .error r

/-- A fault of a part, as its node reports it: a missing key and a wrong value become validation
faults of the node, all others pass. -/
def settle (type : String) (node : Json) (r : Report) : Report :=
  if r.kind = .key then (TreeFault.absent type r.message node).report
  else if r.kind.isValue then ⟨.validation, r.message, .object [("node", node)]⟩
  else r

variable {type : String} {node : Json}

/-- The parts that gave `x` fail as `y` does, once their node has settled the fault. -/
def Settles (type : String) (node : Json) (x : Except Report α) (y : Except TreeFault α) : Prop :=
  x.mapError (settle type node) = reported y

theorem settles_ok (a : α) : Settles type node (.ok a) (.ok a) :=
  rfl

theorem settles_reported (y : Except TreeFault α) : Settles type node (reported y) y := by
  cases y <;> rfl

theorem Settles.bind {x : Except Report α} {y : Except TreeFault α} {f : α → Except Report β}
    {g : α → Except TreeFault β} (h : Settles type node x y)
    (hf : ∀ a, Settles type node (f a) (g a)) : Settles type node (x >>= f) (y >>= g) := by
  unfold Settles reported at *
  rw [mapError_bind, mapError_bind, h]
  exact congrArg _ (funext hf)

theorem Settles.map {x : Except Report α} {y : Except TreeFault α} (h : Settles type node x y)
    (f : α → β) : Settles type node (x.map f) (y.map f) := by
  have := h.bind fun a => settles_ok (f a)
  cases x <;> cases y <;> exact this

end Handling

/-- The member of that name, or the name as a missing key. -/
def demanded (field : String) (ms : Json.Members) : Except Report Json :=
  match Assoc.find? field ms with
  | some v => .ok v
  | none => .error ⟨.key, field, .object []⟩

theorem settles_demanded {α : Type} {type field : String} {node : Json} {ms : Json.Members}
    {f : Json → Except Report α} {g : Json → Except TreeFault α}
    (h : ∀ v, Assoc.find? field ms = some v → Settles type node (f v) (g v)) :
    Settles type node (demanded field ms >>= f)
      ((Assoc.find? field ms).elim (.error (.absent type field node)) g) := by
  unfold demanded
  cases hv : Assoc.find? field ms with
  | none => rfl
  | some v => exact h v hv

namespace Operator

def named (s : String) : Except Report Operator :=
  match ofName? s with
  | some op => .ok op
  | none => .error ⟨.value, Text.quoted s ++ " is not a valid Operator", .object []⟩

def spelled (s : String) : Except Report Operator :=
  match ofSymbol? s with
  | some op => .ok op
  | none => .error (Fault.unknownSymbol s).report

/-- The operator of that name or else of that symbol. -/
def sought (s : String) : Except Report Operator :=
  rescue FaultClass.isValue
    (rescue FaultClass.isValue (.error (TreeFault.unknownOperator s).report) (spelled s)) (named s)

theorem sought_eq (s : String) : sought s = reported (Condition.operatorOf (.text s)) := by
  rw [sought, named, spelled, Condition.operatorOf]
  cases ofName? s <;> cases ofSymbol? s <;> rfl

end Operator

namespace Condition

variable (ms : Json.Members)

def attemptOperator : Json → Except Report Operator
  | .text s => Operator.sought s
  | v => .error (TreeFault.operatorNotText v).report

theorem settles_operator {type : String} {node : Json} (v : Json) :
    Settles type node (attemptOperator v) (operatorOf v) := by
  cases v with
  | text s =>
    rw [attemptOperator, Operator.sought_eq]
    exact settles_reported _
  | null | bool _ | int _ | real _ | list _ | object _ => rfl

def attemptText (field : String) : Json → Except Report String
  | .text s => .ok s
  | _ => .error (TreeFault.notText field (.object ms)).report

def attemptTruth (field : String) (usual : Bool) : Except Report Bool :=
  match (Assoc.find? field ms).getD (.bool usual) with
  | .bool b => .ok b
  | _ => .error (TreeFault.notTruth field (.object ms)).report

/-- The reader of one node whose children are read by `g`. Each node turns the faults of its parts
into validation faults about itself, and lets those pass that are validation faults already. -/
def attempt : Except Report Condition := do
  let typeRef ← reported (textField? "dataType" ms)
  let parameter ← demanded "parameter" ms >>= attemptText ms "parameter"
  let operator ← demanded "operator" ms >>= attemptOperator
  let value ← reported (valueOf ((Assoc.find? "value" ms).getD .null))
  let grouped ← attemptTruth ms "grouped" true
  return .of parameter (some operator) value (kindOf typeRef) grouped

theorem settles_attempt : Settles "condition" (.object ms) (attempt ms) (ofTree ms) := by
  unfold attempt ofTree
  refine (settles_reported _).bind fun typeRef => ?_
  unfold demanded
  cases Assoc.find? "parameter" ms with
  | none => rfl
  | some p =>
    cases p with
    | text parameter =>
      refine (settles_ok parameter).bind fun parameter => ?_
      cases Assoc.find? "operator" ms with
      | none => rfl
      | some v =>
        refine (settles_operator v).bind fun operator => ?_
        refine (settles_reported _).bind fun value => ?_
        unfold attemptTruth
        cases Assoc.find? "grouped" ms with
        | none => rfl
        | some g => cases g <;> rfl
    | null | bool _ | int _ | real _ | list _ | object _ => rfl

end Condition

namespace Expr

variable {strict : Bool} {ms : Json.Members} {g : Json → Except Report Expr}

def attemptConnective : Option String → Except Report (Option Connective)
  | none => .ok none
  | some s =>
    match Connective.ofSymbol? s with
    | some c => .ok c
    | none => .error (Fault.unknownConnective s).report

def attemptNode (g : Json → Except Report Expr) : Json → Except Report (Node Expr)
  | .object ms => do
    let c ← reported (textField? "connective" ms) >>= attemptConnective
    let e ← demanded "expression" ms >>= g
    return ⟨c, e⟩
  | v => .error (TreeFault.entryNotObject v).report

def attemptNodes (g : Json → Except Report Expr) (whole : Json) :
    Json → Except Report (List (Node Expr))
  | .list entries => entries.mapM (attemptNode g)
  | _ => .error (TreeFault.nodesNotList whole).report

def attemptComposite (strict : Bool) (ns : List (Node Expr)) : Except Report Expr :=
  if strict then (composite? ns).mapError fun f => (Fault.layout f).report else .ok (composite ns)

def attemptTruth (whole : Json) : Json → Except Report Bool
  | .bool b => .ok b
  | _ => .error (TreeFault.constantNotTruth whole).report

def attemptConstant (ms : Json.Members) : Except Report Expr := do
  let value ← demanded "value" ms >>= attemptTruth (.object ms)
  let label ← reported (textField? "label" ms)
  return constantOf value label

def attempt (g : Json → Except Report Expr) (strict : Bool) : Json → Except Report Expr
  | .object ms =>
    let node := Json.object ms
    match Assoc.find? "type" ms with
    | some (.text "condition") =>
      ((Condition.attempt ms).map condition).mapError (settle "condition" node)
    | some (.text "composite") =>
      (demanded "nodes" ms >>= attemptNodes g node >>= attemptComposite strict).mapError
        (settle "composite" node)
    | some (.text "group") =>
      ((demanded "expression" ms >>= g).map group).mapError (settle "group" node)
    | some (.text "constant") =>
      (attemptConstant ms).mapError (settle "constant" node)
    | type => .error (TreeFault.unknownType (type.getD .null) node).report
  | v => .error (TreeFault.notObject v).report

theorem settles_connective (whole : Json) (ms : Json.Members) :
    Settles "composite" whole (reported (textField? "connective" ms) >>= attemptConnective)
      (connectiveOfTree whole ms) := by
  refine (settles_reported _).bind fun symbol => ?_
  cases symbol with
  | none => rfl
  | some s =>
    unfold attemptConnective
    dsimp only
    cases Connective.ofSymbol? s <;> rfl

theorem settles_child {type : String} {node : Json}
    (hg : ∀ w, Assoc.find? "expression" ms = some w → g w = reported (ofTree strict w)) :
    Settles type node (demanded "expression" ms >>= g)
      (childIn strict (.absent type "expression" node) ms) := by
  rw [childIn_eq]
  exact settles_demanded fun w hw => hg w hw ▸ settles_reported _

theorem settles_node {whole entry : Json}
    (hg : ∀ w, w.Within entry → g w = reported (ofTree strict w)) :
    Settles "composite" whole (attemptNode g entry) (nodeOfTree strict whole entry) := by
  cases entry with
  | object ms =>
    rw [nodeOfTree]
    refine (settles_connective whole ms).bind fun c => ?_
    exact (settles_child fun w hw => hg w (.of_find? hw)).bind fun e => settles_ok _
  | null | bool _ | int _ | real _ | text _ | list _ =>
    rw [nodeOfTree]
    · rfl
    · exact nofun

theorem settles_entries {whole : Json} {entries : List Json}
    (hg : ∀ entry ∈ entries, ∀ w, w.Within entry → g w = reported (ofTree strict w)) :
    Settles "composite" whole (entries.mapM (attemptNode g))
      (nodesOfEntries strict whole entries) := by
  induction entries with
  | nil => rw [nodesOfEntries]; rfl
  | cons entry entries ih =>
    obtain ⟨hx, hs⟩ := List.forall_mem_cons.mp hg
    rw [nodesOfEntries, List.mapM_cons]
    exact (settles_node hx).bind fun n => (ih hs).bind fun ns => settles_ok _

theorem settles_nodes
    (hg : ∀ w m, m ∈ ms → w.Within m.2 → g w = reported (ofTree strict w)) :
    Settles "composite" (.object ms) (demanded "nodes" ms >>= attemptNodes g (.object ms))
      (nodesIn strict (.object ms) ms) := by
  rw [nodesIn_eq]
  refine settles_demanded fun v hv => ?_
  obtain ⟨m, hm, rfl⟩ := Assoc.exists_mem_of_find? hv
  cases hn : m.2 with
  | list entries =>
    rw [nodesOfTree]
    exact settles_entries fun entry he w hw => hg w m hm (hn ▸ .item he hw)
  | null | bool _ | int _ | real _ | text _ | object _ =>
    rw [nodesOfTree]
    · rfl
    · exact nofun

theorem settles_composite (strict : Bool) (whole : Json) (ns : List (Node Expr)) :
    Settles "composite" whole (attemptComposite strict ns) (compositeOfTree strict whole ns) := by
  unfold attemptComposite compositeOfTree composite?
  cases strict with
  | false => rfl
  | true => cases layoutFault? ns <;> rfl

theorem settles_constant (ms : Json.Members) :
    Settles "constant" (.object ms) (attemptConstant ms) (constantOfTree ms) := by
  unfold attemptConstant constantOfTree demanded
  cases Assoc.find? "value" ms with
  | none => rfl
  | some v =>
    cases v with
    | bool b => exact (settles_reported _).bind fun label => settles_ok _
    | null | int _ | real _ | text _ | list _ | object _ => rfl

theorem attempt_object
    (hg : ∀ w m, m ∈ ms → w.Within m.2 → g w = reported (ofTree strict w)) :
    attempt g strict (.object ms) = reported (ofTree strict (.object ms)) := by
  have child : ∀ w, Assoc.find? "expression" ms = some w → g w = reported (ofTree strict w) := by
    intro w hw
    obtain ⟨m, hm, rfl⟩ := Assoc.exists_mem_of_find? hw
    exact hg m.2 m hm (.refl _)
  rw [attempt, ofTree]
  generalize Assoc.find? "type" ms = type
  split
  · exact (Condition.settles_attempt ms).map condition
  · exact (settles_nodes hg).bind (settles_composite strict _)
  · exact (settles_child child).map group
  · exact settles_constant ms
  -- no part of the node has been read, so there is nothing to settle
  · simp_all only [reported, Except.mapError]

theorem attempt_other {v : Json} (h : ∀ ms, v ≠ .object ms) :
    attempt g strict v = reported (ofTree strict v) := by
  rw [attempt, ofTree]
  · rfl
  · exact h
  · exact h

/-- A reader that takes every node apart in the way of `attempt`, by itself for the children, reads
what `ofTree` reads; and `ofTree` is such a reader. -/
theorem eq_attempt_iff :
    (∀ v, g v = attempt g strict v) ↔ ∀ v, g v = reported (ofTree strict v) := by
  constructor
  · intro hg v
    induction v using Json.Within.induct with
    | object ms ih => rw [hg, attempt_object fun w m hm hw => ih w m hm hw]
    | other v hv => rw [hg, attempt_other hv]
  · intro hg v
    by_cases h : ∃ ms, v = .object ms
    · obtain ⟨ms, rfl⟩ := h
      rw [hg, attempt_object fun w _ _ _ => hg w]
    · rw [hg, attempt_other fun ms hv => h ⟨ms, hv⟩]

theorem reported_ofTree (strict : Bool) (v : Json) :
    reported (ofTree strict v) = (read strict v).mapError Fault.report := by
  rw [read]
  cases ofTree strict v <;> rfl

/-- A tree is read, or refused by a validation fault that repeats only what stands in the tree; and
the reader in which the parts of a node fail in all their classes never answers otherwise. -/
theorem read_ok_or_validation (strict : Bool) (v : Json) :
    ((∃ e, read strict v = .ok e) ∨ ∃ f, read strict v = .error f ∧ f.kind = .validation ∧
        f.details ≠ [] ∧ ∀ d ∈ f.details, d.1 ∈ ["node", "operator", "value"] ∧ d.2.Within v) ∧
      ∀ g : Json → Except Report Expr, (∀ w, g w = attempt g strict w) ↔
        ∀ w, g w = (read strict w).mapError Fault.report := by
  refine ⟨?_, fun g => by simp only [eq_attempt_iff, reported_ofTree]⟩
  unfold read
  cases h : ofTree strict v with
  | ok e => exact .inl ⟨e, rfl⟩
  | error f =>
    obtain ⟨hne, hnames⟩ := f.details_names
    exact .inr ⟨.tree f, rfl, rfl, hne, fun d hd =>
      ⟨hnames d hd, repeatsOnly_ofTree strict v f h d hd⟩⟩

end Expr

end RuleTables
