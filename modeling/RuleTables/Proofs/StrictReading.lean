import RuleTables.Expr.Tree
import RuleTables.Proofs.Outcome
import RuleTables.Proofs.Validity

namespace RuleTables

namespace Expr

/-- The strict result is the lenient one, as far as that passes the test. -/
def Sifts {α : Type} (p : α → Prop) (strict lenient : Except TreeFault α) : Prop :=
  ∀ x, strict = .ok x ↔ lenient = .ok x ∧ p x

def AreLaidOut (ns : List (Node Expr)) : Prop :=
  ∀ n ∈ ns, n.child.isLaidOut

section Sifting

variable {α β : Type} {p : α → Prop} {q : β → Prop} {strict lenient : Except TreeFault α}

theorem sifts_self (h : ∀ x, lenient = .ok x → p x) : Sifts p lenient lenient :=
  fun x => ⟨fun hx => ⟨hx, h x hx⟩, fun hx => hx.1⟩

theorem sifts_error (f : TreeFault) : Sifts p (.error f) (.error f) :=
  sifts_self nofun

theorem Sifts.bind {f g : α → Except TreeFault β} (h : Sifts p strict lenient)
    (hf : ∀ x y, p x ∧ f x = .ok y ↔ g x = .ok y ∧ q y) :
    Sifts q (strict >>= f) (lenient >>= g) := by
  intro y
  rw [bind_eq_ok_iff, bind_eq_ok_iff, exists_and_right.symm]
  refine exists_congr fun x => ?_
  rw [h x, and_assoc, hf x y, and_assoc]

theorem Sifts.map {f : α → β} (h : Sifts p strict lenient) (hf : ∀ x, p x ↔ q (f x)) :
    Sifts q (strict.map f) (lenient.map f) := by
  intro y
  rw [map_eq_ok_iff, map_eq_ok_iff, exists_and_right.symm]
  refine exists_congr fun x => ?_
  rw [h x, and_assoc, and_assoc, hf x]
  exact and_congr_right fun _ => ⟨fun ⟨hq, hy⟩ => ⟨hy, hy ▸ hq⟩, fun ⟨hy, hq⟩ => ⟨hy ▸ hq, hy⟩⟩

end Sifting

theorem sifts_compositeOfTree (whole : Json) (ns : List (Node Expr)) (e : Expr) :
    AreLaidOut ns ∧ compositeOfTree true whole ns = .ok e ↔
      compositeOfTree false whole ns = .ok e ∧ e.isLaidOut := by
  have hs : compositeOfTree true whole ns = .ok e ↔ layoutFault? ns = none ∧ composite ns = e := by
    cases hf : layoutFault? ns <;> simp [compositeOfTree, hf]
  have hl : compositeOfTree false whole ns = .ok e ↔ composite ns = e := by simp [compositeOfTree]
  rw [hs, hl]
  constructor
  · rintro ⟨ha, hf, rfl⟩
    exact ⟨rfl, isLaidOut_composite.mpr ⟨hf, ha⟩⟩
  · rintro ⟨rfl, ho⟩
    obtain ⟨hf, ha⟩ := isLaidOut_composite.mp ho
    exact ⟨ha, hf, rfl⟩

theorem exists_of_constantOfTree {ms : Json.Members} {e : Expr} (h : constantOfTree ms = .ok e) :
    ∃ b label, e = constantOf b label := by
  rw [constantOfTree] at h
  split at h
  · cases h
  · obtain ⟨b, -, hb⟩ := bind_eq_ok_iff.mp h
    obtain ⟨label, -, hl⟩ := bind_eq_ok_iff.mp hb
    exact ⟨b, label, (Except.ok.inj hl).symm⟩
  · cases h

-- one statement for each walk of the reader, by the same recursion as there
mutual

theorem sifts_ofTree : ∀ v, Sifts (isLaidOut ·) (ofTree true v) (ofTree false v)
  | .object ms => by
    rw [ofTree, ofTree]
    split
    · refine sifts_self fun e he => ?_
      obtain ⟨c, -, rfl⟩ := map_eq_ok_iff.mp he
      rfl
    · exact (sifts_nodesIn (.object ms) ms).bind (sifts_compositeOfTree (.object ms))
    · exact (sifts_childIn _ ms).map fun e => isLaidOut_group.symm
    · refine sifts_self fun e he => ?_
      obtain ⟨b, label, rfl⟩ := exists_of_constantOfTree he
      cases label <;> cases b <;> rfl
    · exact sifts_error _
  | .null | .bool _ | .int _ | .real _ | .text _ | .list _ => by
    simp only [ofTree, sifts_error]

theorem sifts_childIn (absent : TreeFault) : ∀ ms : Json.Members,
    Sifts (isLaidOut ·) (childIn true absent ms) (childIn false absent ms)
  | [] => by
    rw [childIn, childIn]
    exact sifts_error absent
  | (n, v) :: ms => by
    rw [childIn, childIn]
    split
    · exact sifts_ofTree v
    · exact sifts_childIn absent ms

theorem sifts_nodesIn (whole : Json) : ∀ ms : Json.Members,
    Sifts AreLaidOut (nodesIn true whole ms) (nodesIn false whole ms)
  | [] => by
    rw [nodesIn, nodesIn]
    exact sifts_error _
  | (n, v) :: ms => by
    rw [nodesIn, nodesIn]
    split
    · exact sifts_nodesOfTree whole v
    · exact sifts_nodesIn whole ms

theorem sifts_nodesOfTree (whole : Json) : ∀ v,
    Sifts AreLaidOut (nodesOfTree true whole v) (nodesOfTree false whole v)
  | .list entries => by
    rw [nodesOfTree, nodesOfTree]
    exact sifts_nodesOfEntries whole entries
  | .null | .bool _ | .int _ | .real _ | .text _ | .object _ => by
    simp only [nodesOfTree, sifts_error]

theorem sifts_nodesOfEntries (whole : Json) : ∀ entries,
    Sifts AreLaidOut (nodesOfEntries true whole entries) (nodesOfEntries false whole entries)
  | [] => by
    rw [nodesOfEntries, nodesOfEntries]
    exact sifts_self fun ns h => Except.ok.inj h ▸ nofun
  | entry :: entries => by
    rw [nodesOfEntries, nodesOfEntries]
    refine (sifts_nodeOfTree whole entry).bind fun n ns => ?_
    have h := sifts_nodesOfEntries whole entries
    constructor
    · rintro ⟨hn, hs⟩
      obtain ⟨ms, hm, hc⟩ := bind_eq_ok_iff.mp hs
      obtain ⟨hm, ha⟩ := (h ms).mp hm
      cases hc
      exact ⟨bind_eq_ok_iff.mpr ⟨ms, hm, rfl⟩, List.forall_mem_cons.mpr ⟨hn, ha⟩⟩
    · rintro ⟨hl, ha⟩
      obtain ⟨ms, hm, hc⟩ := bind_eq_ok_iff.mp hl
      cases hc
      obtain ⟨hn, ha⟩ := List.forall_mem_cons.mp ha
      exact ⟨hn, bind_eq_ok_iff.mpr ⟨ms, (h ms).mpr ⟨hm, ha⟩, rfl⟩⟩

theorem sifts_nodeOfTree (whole : Json) : ∀ v,
    Sifts (·.child.isLaidOut) (nodeOfTree true whole v) (nodeOfTree false whole v)
  | .object ms => by
    rw [nodeOfTree, nodeOfTree]
    -- the connective is read in the same way by both
    have hc : Sifts (fun _ => True) (connectiveOfTree whole ms) (connectiveOfTree whole ms) :=
      sifts_self fun _ _ => trivial
    refine hc.bind fun c n => ?_
    have h := (sifts_childIn (.absent "composite" "expression" whole) ms).map
      (f := fun e => (⟨c, e⟩ : Node Expr)) (q := (·.child.isLaidOut)) fun e => Iff.rfl
    exact (iff_of_eq (true_and _)).trans (h n)
  | .null | .bool _ | .int _ | .real _ | .text _ | .list _ => by
    simp only [nodeOfTree, sifts_error]

end

end Expr

section Messages

def LayoutFault.initial : LayoutFault → Char
  | empty => 'C'
  | leading _ => 'F'
  | missing _ => 'E'

def Finding.initial : Finding → Char
  | noParameter => 'P'
  | noOperator => 'O'
  | wrongKind _ _ => 'O'
  | noValue _ => 'V'
  | layout f => f.initial
  | unsupported _ => 'U'

theorem LayoutFault.head?_message (f : LayoutFault) : f.message.toList.head? = some f.initial := by
  cases f with
  | empty => rfl
  | leading c =>
    change "First expression should not have a logical operator".toList.head? = some 'F'
    rfl
  | missing position =>
    change ("Expression at position " ++ toString position ++
      " is missing a logical operator").toList.head? = some 'E'
    simp

theorem Finding.head?_message (g : Finding) : g.message.toList.head? = some g.initial := by
  cases g with
  | noParameter => rfl
  | noOperator => rfl
  | wrongKind op k =>
    change ("Operator '" ++ op.label ++ "' does not support data type " ++
      k.name).toList.head? = some 'O'
    simp
  | noValue op =>
    change ("Value is required for operator '" ++ op.label ++ "'").toList.head? = some 'V'
    simp
  | layout f => exact f.head?_message
  | unsupported t =>
    change ("Unsupported expression type: " ++ t).toList.head? = some 'U'
    simp

theorem Finding.eq_layout_of_message {f : LayoutFault} {g : Finding} (h : g.message = f.message) :
    ∃ k, g = .layout k := by
  have hi : some g.initial = some f.initial := by rw [← g.head?_message, ← f.head?_message, h]
  cases g with
  | layout k => exact ⟨k, rfl⟩
  | noParameter | noOperator | wrongKind _ _ | noValue _ | unsupported _ =>
    cases f <;> cases hi

end Messages

namespace Expr

theorem mem_validate (e : Expr) (m : String) :
    m ∈ e.validate.errors ∨ m ∈ e.validate.warnings ↔ ∃ g ∈ e.findings, g.message = m := by
  simp only [validate, Findings.ofList, List.mem_map, List.mem_filter]
  constructor
  · rintro (⟨g, ⟨hg, -⟩, hm⟩ | ⟨g, ⟨hg, -⟩, hm⟩) <;> exact ⟨g, hg, hm⟩
  · rintro ⟨g, hg, hm⟩
    cases hw : g.isWarning with
    | false => exact .inl ⟨g, ⟨hg, by rw [hw]; rfl⟩, hm⟩
    | true => exact .inr ⟨g, ⟨hg, hw⟩, hm⟩

theorem layout_not_mem_laterFindings {ns : List (Node Expr)} (position : Nat) :
    (∀ f, .layout f ∉ laterFindings position ns) ↔
      (∀ n ∈ ns, n.connective.isSome) ∧ ∀ n ∈ ns, ∀ f, .layout f ∉ n.child.findings := by
  induction ns generalizing position with
  | nil => simp [laterFindings]
  | cons n ns ih =>
    have hc : (∀ f, .layout f ∉ if n.connective.isNone then
        [Finding.layout (.missing position)] else []) ↔ n.connective.isSome := by
      cases n.connective <;> simp
    simp only [laterFindings_cons, List.mem_append, not_or, forall_and, hc, ih (position + 1),
      List.forall_mem_cons]
    exact and_and_and_comm

theorem layout_not_mem_findings_composite {n : Node Expr} {ns : List (Node Expr)} :
    (∀ f, .layout f ∉ (composite (n :: ns)).findings) ↔
      layoutFault? (n :: ns) = none ∧ ∀ m ∈ n :: ns, ∀ f, .layout f ∉ m.child.findings := by
  have hc : (∀ f, .layout f ∉ (n.connective.map fun c => Finding.layout (.leading c)).toList) ↔
      n.connective = none := by
    cases n.connective <;> simp
  have hl : layoutFault? (n :: ns) = none ↔
      n.connective = none ∧ ∀ m ∈ ns, m.connective.isSome := by
    rw [layoutFault?_eq_none_iff]
    constructor
    · rintro ⟨k, ks, he, hk, hs⟩
      obtain ⟨rfl, rfl⟩ := List.cons.inj he
      exact ⟨hk, hs⟩
    · exact fun ⟨hk, hs⟩ => ⟨n, ns, rfl, hk, hs⟩
  simp only [findings_composite_cons, List.mem_append, not_or, forall_and, hc,
    layout_not_mem_laterFindings, List.forall_mem_cons, hl]
  exact and_and_and_comm

theorem layout_not_mem_condition (c : Condition) (f : LayoutFault) : .layout f ∉ c.findings := by
  cases ho : c.operator <;> simp [Condition.findings, ho]

/-- Validation finds nothing about a layout just where every composite is laid out properly. -/
theorem isLaidOut_iff (e : Expr) : e.isLaidOut ↔ ∀ f, .layout f ∉ e.findings := by
  induction e with
  | condition c => exact iff_of_true rfl (layout_not_mem_condition c)
  | composite ns ih =>
    rw [isLaidOut_composite, forall₂_congr ih]
    cases ns with
    | nil => simp [layoutFault?, findings, firstFindings]
    | cons n ns => exact layout_not_mem_findings_composite.symm
  | group e ih => exact isLaidOut_group.trans ih
  | constant b label => exact iff_of_true rfl (by simp [findings])
  | foreign v => exact iff_of_true rfl (by simp [findings])

theorem isLaidOut_iff_not_reported (e : Expr) : e.isLaidOut ↔
    ∀ f : LayoutFault, f.message ∉ e.validate.errors ∧ f.message ∉ e.validate.warnings := by
  simp only [← not_or, mem_validate, isLaidOut_iff]
  constructor
  · rintro h f ⟨g, hg, hm⟩
    obtain ⟨k, rfl⟩ := Finding.eq_layout_of_message hm
    exact h k hg
  · exact fun h f hf => h f ⟨_, hf, rfl⟩

/-- Strict reading gives just those expressions that lenient reading gives and in which validation
reports nothing about the layout of a composite. -/
theorem read_strict_iff (v : Json) (e : Expr) : read true v = .ok e ↔ read false v = .ok e ∧
    ∀ f : LayoutFault, f.message ∉ e.validate.errors ∧ f.message ∉ e.validate.warnings := by
  rw [read, read, mapError_eq_ok_iff, mapError_eq_ok_iff, ← isLaidOut_iff_not_reported]
  exact sifts_ofTree v e

end Expr

end RuleTables
