import RuleTables.Operator.Fragment
import RuleTables.Proofs.InferredKinds

namespace RuleTables

namespace Text

section Literals

variable {s ds whole fraction x cs : List Char}

/-- An optional sign and digits, maybe with a point between two of them; or a truth value in small
letters. -/
def IsLiteral (cs : List Char) : Prop :=
  (∃ s whole, IsSign s ∧ IsDigits whole ∧ cs = s ++ whole) ∨
  (∃ s whole fraction, IsSign s ∧ IsDigits whole ∧ IsDigits fraction ∧
    cs = s ++ (whole ++ '.' :: fraction)) ∨
  cs = "true".toList ∨ cs = "false".toList

theorem isTruthText_of_small (h : cs = "true".toList ∨ cs = "false".toList) : IsTruthText cs := by
  rcases h with rfl | rfl
  · exact .inl (by decide)
  · exact .inr (by decide)

theorem isLiteral_integer_iff (hs : IsSign s) (hr : IsRun ds) :
    IsLiteral (s ++ ds) ↔ IsDigits ds := by
  have hi : IsIntegerText (s ++ ds) := ⟨s, ds, hs, hr, rfl⟩
  constructor
  · rintro (⟨s', whole, hs', hw, he⟩ | ⟨s', whole, fraction, -, -, -, he⟩ | ht)
    · have hd : ds = whole := by
        rw [← hr.dropSign_append hs, he, hw.isRun.dropSign_append hs']
      rwa [hd]
    · exact absurd (he ▸ by simp) hi.point_not_mem
    · exact absurd hi (isTruthText_of_small ht).not_integer
  · exact fun hd => .inl ⟨s, ds, hs, hd, rfl⟩

theorem eq_nil_of_digits (hx : x = [] ∨ IsExponent x) (h : ∀ c ∈ x, c.isDigit) : x = [] := by
  -- no digit is a mark, so an exponent would be seen among the digits behind the point
  apply hx.resolve_right
  rintro ⟨mark, s, ds, hm, -, -, rfl⟩
  have hd : mark.isDigit := h mark List.mem_cons_self
  rw [isExponentMark, Bool.or_eq_true, decide_eq_true_eq, decide_eq_true_eq] at hm
  rcases hm with rfl | rfl
  · exact absurd hd (by decide)
  · exact absurd hd (by decide)

theorem isLiteral_decimal_iff (hs : IsSign s) (hm : IsMantissa whole fraction)
    (hx : x = [] ∨ IsExponent x) :
    IsLiteral (s ++ (whole ++ '.' :: fraction) ++ x) ↔
      IsDigits whole ∧ IsDigits fraction ∧ x = [] := by
  have hd : IsDecimalText (s ++ (whole ++ '.' :: fraction) ++ x) :=
    ⟨s, whole, fraction, x, hs, hm, hx, rfl⟩
  constructor
  · rintro (⟨s', w, hs', hw, he⟩ | ⟨s', w, f, hs', hw, hf, he⟩ | ht)
    · exact absurd (he ▸ hd.point_mem) (IsIntegerText.point_not_mem ⟨s', w, hs', hw.isRun, rfl⟩)
    · have hu : w ++ '.' :: f = whole ++ '.' :: (fraction ++ x) := by
        have hl := hm.dropSign_append (x := x) hs
        have hr := (hw.isMantissa hf).dropSign_append (x := []) hs'
        rw [List.append_nil, List.append_nil, ← he, hl, List.append_assoc] at hr
        exact hr.symm
      have hp : '.' ∉ w := hw.isRun.not_mem (by decide) (by decide)
      have hq : '.' ∉ f := hf.isRun.not_mem (by decide) (by decide)
      obtain ⟨rfl, -, rfl⟩ := (List.append_cons_inj_of_notMem hp hq).mp hu
      have hn : x = [] := eq_nil_of_digits hx fun c hc => hf.2 c (List.mem_append_right _ hc)
      rw [hn, List.append_nil] at hf
      exact ⟨hw, hf, hn⟩
    · exact absurd hd.point_mem (isTruthText_of_small ht).point_not_mem
  · rintro ⟨hw, hf, rfl⟩
    exact .inr (.inl ⟨s, whole, fraction, hs, hw, hf, List.append_nil _⟩)

theorem isLiteral_truth_iff (h : IsTruthText cs) :
    IsLiteral cs ↔ cs = "true".toList ∨ cs = "false".toList := by
  constructor
  · rintro (⟨s, whole, hs, hw, he⟩ | ⟨s, whole, fraction, -, -, -, he⟩ | ht)
    · exact absurd ⟨s, whole, hs, hw.isRun, he⟩ h.not_integer
    · exact absurd (he ▸ by simp) h.point_not_mem
    · exact ht
  · exact fun ht => .inr (.inr ht)

end Literals

end Text

namespace Operator

open Text

theorem equality_unquoted {k : Kind} (h : k ≠ .string) (p v : String) :
    equals.fragment .unary p v k = v ∧
    equals.fragment .java p v k = p ++ " == " ++ v ∧
    equals.fragment .feel p v k = p ++ " = " ++ v ∧
    notEquals.fragment .unary p v k = "not(" ++ v ++ ")" ∧
    notEquals.fragment .java p v k = p ++ " != " ++ v ∧
    notEquals.fragment .feel p v k = p ++ " != " ++ v := by
  cases k with
  | string => exact absurd rfl h
  | integer | long | double | boolean | date | dateTime => exact ⟨rfl, rfl, rfl, rfl, rfl, rfl⟩

/-- The comparison for equality writes a value without quotes as it stands. Without the blanks
around it the value is an integer, a decimal or a truth value, and each of these is a literal just
if it is written plainly. -/
theorem unquoted_forms {v : String} (h : Kind.infer v ≠ .string) :
    (∀ p, equals.fragment .unary p v (Kind.infer v) = v ∧
      equals.fragment .java p v (Kind.infer v) = p ++ " == " ++ v ∧
      equals.fragment .feel p v (Kind.infer v) = p ++ " = " ++ v ∧
      notEquals.fragment .unary p v (Kind.infer v) = "not(" ++ v ++ ")" ∧
      notEquals.fragment .java p v (Kind.infer v) = p ++ " != " ++ v ∧
      notEquals.fragment .feel p v (Kind.infer v) = p ++ " != " ++ v) ∧
    ((Kind.infer v = .integer ∧ ∃ s ds, IsSign s ∧ IsRun ds ∧
        (ds.filter isDigit).length ≤ digitLimit ∧ (trim v).toList = s ++ ds ∧
        (IsLiteral (trim v).toList ↔ IsDigits ds)) ∨
      (Kind.infer v = .double ∧ ∃ s whole fraction x, IsSign s ∧ IsMantissa whole fraction ∧
        (x = [] ∨ IsExponent x) ∧ (trim v).toList = s ++ (whole ++ '.' :: fraction) ++ x ∧
        (IsLiteral (trim v).toList ↔ IsDigits whole ∧ IsDigits fraction ∧ x = [])) ∨
      (Kind.infer v = .boolean ∧ IsTruthText (trim v).toList ∧
        (IsLiteral (trim v).toList ↔
          (trim v).toList = "true".toList ∨ (trim v).toList = "false".toList))) := by
  refine ⟨fun p => equality_unquoted h p v, ?_⟩
  have hk := Kind.infer_mem v
  simp only [List.mem_cons, h, List.not_mem_nil, or_self, or_false] at hk
  rcases hk with hk | hk | hk
  · obtain ⟨s, whole, fraction, x, hs, hm, hx, he⟩ := Kind.infer_eq_double_iff.mp hk
    refine .inr (.inl ⟨hk, s, whole, fraction, x, hs, hm, hx, he, ?_⟩)
    rw [he]
    exact isLiteral_decimal_iff hs hm hx
  · obtain ⟨⟨s, ds, hs, hr, he⟩, hl⟩ := Kind.infer_eq_integer_iff.mp hk
    rw [he, List.filter_append, hs.filter_isDigit, List.nil_append] at hl
    refine .inl ⟨hk, s, ds, hs, hr, hl, he, ?_⟩
    rw [he]
    exact isLiteral_integer_iff hs hr
  · have ht := Kind.infer_eq_boolean_iff.mp hk
    exact .inr (.inr ⟨hk, ht, isLiteral_truth_iff ht⟩)

theorem thousand_unquoted : Kind.infer "1_000" ≠ .string ∧
    equals.fragment .java "amount" "1_000" (Kind.infer "1_000") = "amount == 1_000" := by
  have h : Kind.infer "1_000" ≠ .string := by decide
  exact ⟨h, ((unquoted_forms h).1 "amount").2.1⟩

theorem capitalTruth_unquoted : Kind.infer "TRUE" ≠ .string ∧
    equals.fragment .unary "rush" "TRUE" (Kind.infer "TRUE") = "TRUE" ∧
    ¬ IsLiteral (trim (equals.fragment .unary "rush" "TRUE" (Kind.infer "TRUE"))).toList := by
  have hf : equals.fragment .unary "rush" "TRUE" (Kind.infer "TRUE") = "TRUE" := by decide
  have ht : IsTruthText (trim "TRUE").toList := .inl (by decide)
  refine ⟨by decide, hf, ?_⟩
  rw [hf, isLiteral_truth_iff ht]
  decide

end Operator

end RuleTables
