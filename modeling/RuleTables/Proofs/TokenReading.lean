import Mathlib.Data.List.Forall2
import RuleTables.Expr.Inline

namespace RuleTables.Inline

section Spelling

variable (test : Operator → String → String → Kind → String) (and or lead : String)

/-- The text of a token, where comparisons and connectives are written as given and parameters
behind `lead`. -/
inductive Spells : Token → String → Prop
  | bare {c : Condition} {op : Operator} : c.operator = some op → c.grouped = false →
      Spells (.test c) (test op (lead ++ c.parameter) c.value c.kind)
  | grouped {c : Condition} {op : Operator} : c.operator = some op → c.grouped →
      Spells (.test c) ("(" ++ test op (lead ++ c.parameter) c.value c.kind ++ ")")
  | open : Spells .open "("
  | close : Spells .close ")"
  | and : Spells (.connective (some .and)) and
  | or : Spells (.connective (some .or)) or
  | truth : Spells (.truth true) "true"
  | falsity : Spells (.truth false) "false"

/-- The text of a line is the texts of its tokens, one after another. -/
def Prints (ts : List Token) (s : String) : Prop :=
  ∃ texts, List.Forall₂ (Spells test and or lead) ts texts ∧ s = String.join texts

end Spelling

section Tokens

variable {t : Token} {n : Node Expr}

theorem laterTokens_eq_flatMap (ns : List (Node Expr)) :
    laterTokens ns = ns.flatMap fun n => .connective n.connective :: tokens n.child := by
  induction ns with
  | nil => rfl
  | cons n ns ih => rw [laterTokens, ih, List.flatMap_cons, List.cons_append]

theorem mem_firstTokens {ns : List (Node Expr)} : t ∈ firstTokens (n :: ns) ↔ t ∈ tokens n.child ∨
    ∃ m ∈ ns, t = .connective m.connective ∨ t ∈ tokens m.child := by
  rw [firstTokens, laterTokens_eq_flatMap, List.mem_append, List.mem_flatMap]
  simp only [List.mem_cons]

end Tokens

/-- What is read: one operand, operands joined by `and`, or a whole line. -/
inductive Level where
  | operand
  | conjunction
  | line

/-- The truth values of lines of tokens under a valuation of the conditions: parentheses come first,
then `and`, then `or`. -/
inductive Reads (v : Condition → Bool) : Level → List Token → Bool → Prop
  | test (c : Condition) : Reads v .operand [.test c] (v c)
  | truth (b : Bool) : Reads v .operand [.truth b] b
  | parens {ts b} : Reads v .line ts b → Reads v .operand (.open :: ts ++ [.close]) b
  | single {ts b} : Reads v .operand ts b → Reads v .conjunction ts b
  | and {ts us b c} : Reads v .conjunction ts b → Reads v .operand us c →
      Reads v .conjunction (ts ++ .connective (some .and) :: us) (b && c)
  | run {ts b} : Reads v .conjunction ts b → Reads v .line ts b
  | or {ts us b c} : Reads v .line ts b → Reads v .conjunction us c →
      Reads v .line (ts ++ .connective (some .or) :: us) (b || c)

/-- The state between two tokens: whether a finished conjunction is true, and whether all operands
of the current one are. -/
structure Scan where
  found : Bool
  current : Bool

namespace Scan

def start : Scan := ⟨false, true⟩

def operand (s : Scan) (b : Bool) : Scan := ⟨s.found, s.current && b⟩

def value (s : Scan) : Bool := s.found || s.current

/-- The value of a line, with the states in front of the open parentheses on a stack. -/
def run (v : Condition → Bool) : Scan → List Scan → List Token → Bool
  | s, _, [] => s.value
  | s, ss, .test c :: ts => run v (s.operand (v c)) ss ts
  | s, ss, .truth b :: ts => run v (s.operand b) ss ts
  | s, ss, .open :: ts => run v start (s :: ss) ts
  | s, r :: ss, .close :: ts => run v (r.operand s.value) ss ts
  | s, [], .close :: ts => run v s [] ts
  | s, ss, .connective (some .or) :: ts => run v ⟨s.value, true⟩ ss ts
  | s, ss, .connective _ :: ts => run v s ss ts
  | s, ss, .none :: ts => run v s ss ts

theorem operand_operand (s : Scan) (b c : Bool) : (s.operand b).operand c = s.operand (b && c) := by
  rw [operand, operand, operand, Bool.and_assoc]

/-- What the scan does on a stretch of tokens that is read as a part of a line. -/
def Passes (v : Condition → Bool) (ts : List Token) (b : Bool) : Level → Prop
  | .line => ∃ t : Scan, t.value = b ∧ ∀ ss us, run v start ss (ts ++ us) = run v t ss us
  | _ => ∀ s ss us, run v s ss (ts ++ us) = run v (s.operand b) ss us

theorem passes_of_reads {v : Condition → Bool} {l : Level} {ts : List Token} {b : Bool}
    (h : Reads v l ts b) : Passes v ts b l := by
  induction h with
  | test c => exact fun s ss us => rfl
  | truth b => exact fun s ss us => rfl
  | @parens ts b _ ih =>
    obtain ⟨t, rfl, ht⟩ := ih
    intro s ss us
    rw [List.cons_append, List.cons_append, List.append_assoc, run, ht, List.singleton_append, run]
  | single _ ih => exact ih
  | @and ts us b c _ _ iht ihu =>
    intro s ss ws
    rw [List.append_assoc, iht s, List.cons_append, run, ihu, operand_operand]
    simp
  | run _ ih => exact ⟨start.operand _, rfl, fun ss us => ih start ss us⟩
  | @or ts us b c _ _ iht ihu =>
    obtain ⟨t, rfl, ht⟩ := iht
    refine ⟨⟨t.value, c⟩, rfl, fun ss ws => ?_⟩
    rw [List.append_assoc, ht, List.cons_append, run, ihu]
    rfl

theorem run_of_reads {v : Condition → Bool} {ts : List Token} {b : Bool}
    (h : Reads v .line ts b) : run v start [] ts = b := by
  obtain ⟨t, rfl, ht⟩ := passes_of_reads h
  simpa [run] using ht [] []

end Scan

theorem Reads.unique {v : Condition → Bool} {ts : List Token} {b c : Bool}
    (hb : Reads v .line ts b) (hc : Reads v .line ts c) : b = c :=
  (Scan.run_of_reads hb).symm.trans (Scan.run_of_reads hc)

end RuleTables.Inline
