import RuleTables.Expr.Findings
import RuleTables.Operator.Fragment

namespace RuleTables

namespace Text

/-- How many characters stand before the first quote, where a backslash takes the character behind
it along. -/
def untilQuote? : List Char → Option Nat
  | [] => none
  | '\x22' :: _ => some 0
  | ['\\'] => none
  | '\\' :: _ :: cs => (untilQuote? cs).map (· + 2)
  | _ :: cs => (untilQuote? cs).map (· + 1)

/-- Characters between the quotes of one literal: quotes and backslashes only behind a backslash. -/
inductive IsEnclosed : List Char → Prop
  | nil : IsEnclosed []
  | plain {c cs} : c ≠ '\x22' → c ≠ '\\' → IsEnclosed cs → IsEnclosed (c :: cs)
  | escaped {c cs} : IsEnclosed cs → IsEnclosed ('\\' :: c :: cs)

theorem isEnclosed_escaped_iff {c : Char} {cs : List Char} :
    IsEnclosed ('\\' :: c :: cs) ↔ IsEnclosed cs := by
  constructor
  · intro h
    cases h with
    | plain _ hb _ => exact absurd rfl hb
    | escaped h => exact h
  · exact .escaped

theorem isEnclosed_plain_iff {c : Char} {cs : List Char} (hq : c ≠ '\x22') (hb : c ≠ '\\') :
    IsEnclosed (c :: cs) ↔ IsEnclosed cs := by
  constructor
  · intro h
    cases h with
    | plain _ _ h => exact h
    | escaped _ => exact absurd rfl hb
  · exact .plain hq hb

theorem untilQuote?_append_iff (cs after : List Char) :
    untilQuote? (cs ++ '\x22' :: after) = some cs.length ↔ IsEnclosed cs := by
  fun_induction untilQuote? cs with
  | case1 => exact iff_of_true rfl .nil
  | case2 cs =>
    refine iff_of_false nofun fun h => ?_
    cases h with
    | plain hq _ _ => exact absurd rfl hq
  | case3 =>
    -- the backslash takes the quote along, so the count cannot stop there
    refine iff_of_false (fun h => ?_) fun h => ?_
    · obtain ⟨n, -, hn⟩ := Option.map_eq_some_iff.mp h
      simp at hn
    · cases h with
      | plain _ hb _ => exact absurd rfl hb
  | case4 c cs ih =>
    rw [isEnclosed_escaped_iff, ← ih]
    simp [untilQuote?]
  | case5 c cs hq hl hb ih =>
    have hc : c ≠ '\\' := by
      rintro rfl
      cases cs with
      | nil => exact hl rfl rfl
      | cons d cs => exact hb d cs rfl rfl
    rw [isEnclosed_plain_iff hq hc, ← ih]
    simp [untilQuote?, hc]

end Text

namespace Operator

/-- The operators whose fragments on text write the value once, in quotes. -/
def quotes : Operator → Bool
  | equals | notEquals | contains | notContains | startsWith | endsWith | matchesPattern => true
  | _ => false

/-- Each value is written as one literal between two texts that are the same for all values, and
that have no quotes but those of the parameter. -/
def CarriesLiteral (p : String) (write : String → String) : Prop :=
  ∃ before after : List Char, ('\x22' ∈ before ++ after → '\x22' ∈ p.toList) ∧
    ∀ value, (write value).toList = before ++ '\x22' :: (value.toList ++ '\x22' :: after)

section Frames

variable {p : String} {write : String → String}

theorem carries_inQuotes (p : String) : CarriesLiteral p inQuotes :=
  ⟨[], [], nofun, fun value => by simp [inQuotes]⟩

theorem CarriesLiteral.prepend (h : CarriesLiteral p write) {s : String}
    (hs : '\x22' ∈ s.toList → '\x22' ∈ p.toList) :
    CarriesLiteral p fun value => s ++ write value := by
  obtain ⟨before, after, hq, hw⟩ := h
  refine ⟨s.toList ++ before, after, fun hm => ?_, fun value => by simp [hw]⟩
  rw [List.append_assoc, List.mem_append] at hm
  exact hm.elim hs hq

theorem CarriesLiteral.append (h : CarriesLiteral p write) {s : String}
    (hs : '\x22' ∉ s.toList) : CarriesLiteral p fun value => write value ++ s := by
  obtain ⟨before, after, hq, hw⟩ := h
  refine ⟨before, after ++ s.toList, fun hm => ?_, fun value => by simp [hw]⟩
  rw [← List.append_assoc, List.mem_append] at hm
  exact hq (hm.resolve_right hs)

theorem carries_call (p method : String) (hm : '\x22' ∉ method.toList) :
    CarriesLiteral p fun value => call p method (inQuotes value) :=
  ((carries_inQuotes p).prepend (by simp [hm])).append (by decide)

theorem carries_apply (p function : String) (hf : '\x22' ∉ function.toList) :
    CarriesLiteral p fun value => apply function p value :=
  ((carries_inQuotes p).prepend (by simp [hf])).append (by decide)

theorem carries_unaryTest {op : Operator} (h : op.quotes) (p : String) :
    CarriesLiteral p fun value => op.unaryTest value .string := by
  cases op with
  | equals => exact carries_inQuotes p
  | notEquals | notContains | contains | matchesPattern =>
    exact ((carries_inQuotes p).prepend (by simp)).append (by decide)
  | startsWith | endsWith => exact (carries_inQuotes p).prepend (by simp)
  | _ => cases h

theorem carries_javaTest {op : Operator} (h : op.quotes) (p : String) :
    CarriesLiteral p fun value => op.javaTest p value .string := by
  cases op with
  | equals | contains | startsWith | endsWith | matchesPattern =>
    exact carries_call p _ (by decide)
  | notEquals | notContains => exact (carries_call p _ (by decide)).prepend (by simp)
  | _ => cases h

theorem carries_feelTest {op : Operator} (h : op.quotes) (p : String) :
    CarriesLiteral p fun value => op.feelTest p value .string := by
  cases op with
  | equals | notEquals => exact (carries_inQuotes p).prepend (by simp)
  | contains | startsWith | endsWith | matchesPattern => exact carries_apply p _ (by decide)
  | notContains => exact ((carries_apply p _ (by decide)).prepend (by simp)).append (by decide)
  | _ => cases h

theorem carries_fragment {op : Operator} (h : op.quotes) (d : Dialect) (p : String) :
    CarriesLiteral p fun value => op.fragment d p value .string := by
  cases d with
  | unary => exact carries_unaryTest h p
  | java => exact carries_javaTest h p
  | feel => exact carries_feelTest h p

end Frames

open Text (untilQuote? IsEnclosed)

/-- A fragment has the value between two quotes that stand at the same place for all values. The
quote behind the value is the first one after the quote before it that is not escaped, just if the
value keeps its own quotes and backslashes behind backslashes. -/
theorem fragment_one_literal_iff {op : Operator} (h : op.quotes) (d : Dialect) (p : String) :
    ∃ before after : List Char, ('\x22' ∈ before ++ after → '\x22' ∈ p.toList) ∧ ∀ value : String,
      (op.fragment d p value .string).toList =
        before ++ '\x22' :: (value.toList ++ '\x22' :: after) ∧
      (untilQuote? (value.toList ++ '\x22' :: after) = some value.toList.length ↔
        IsEnclosed value.toList) := by
  obtain ⟨before, after, hq, hw⟩ := carries_fragment h d p
  exact ⟨before, after, hq, fun value => ⟨hw value, Text.untilQuote?_append_iff _ after⟩⟩

theorem matches_escaped_quotes : matchesPattern.quotes ∧ ∃ before after : List Char,
    (matchesPattern.fragment .feel "class" "\\\"vip\\\"" .string).toList =
      before ++ '\x22' :: ("\\\"vip\\\"".toList ++ '\x22' :: after) ∧
    untilQuote? ("\\\"vip\\\"".toList ++ '\x22' :: after) = some 7 := by
  have ho : matchesPattern.quotes := rfl
  obtain ⟨before, after, -, hv⟩ := fragment_one_literal_iff ho .feel "class"
  obtain ⟨hf, hu⟩ := hv "\\\"vip\\\""
  have he : IsEnclosed "\\\"vip\\\"".toList :=
    .escaped (.plain (by decide) (by decide) (.plain (by decide) (by decide)
      (.plain (by decide) (by decide) (.escaped .nil))))
  exact ⟨ho, before, after, hf, hu.mpr he⟩

def quotedClass : Condition := .of "class" (some .equals) "vip\", \"gold" (some .string) true

/-- No error is found about the condition, but its cell lists two classes. -/
theorem quotedClass_two_literals : (Expr.condition quotedClass).validate.isValid ∧
    quotedClass.kind = .string ∧
    fragment .equals .unary "?" quotedClass.value .string =
      fragment .oneOf .unary "?" "vip,gold" .string ∧
    ¬ ∃ before after : List Char, (fragment .equals .unary "?" quotedClass.value .string).toList =
        before ++ '\x22' :: (quotedClass.value.toList ++ '\x22' :: after) ∧
      untilQuote? (quotedClass.value.toList ++ '\x22' :: after) =
        some quotedClass.value.toList.length := by
  refine ⟨by decide, rfl, by decide, ?_⟩
  rintro ⟨before, after, -, hu⟩
  cases hu

end Operator

end RuleTables
