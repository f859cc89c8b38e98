import RuleTables.Kind
import RuleTables.Proofs.Numerals
import RuleTables.Proofs.Separation

namespace RuleTables

namespace Text

section SmallLetters

variable {c d : Char} {cs : List Char}

def truthLetters : List Char := ['t', 'r', 'u', 'e', 'f', 'a', 'l', 's']

theorem forall_truthLetters {p : Char → Prop} : (∀ d ∈ truthLetters, p d) ↔
    p 't' ∧ p 'r' ∧ p 'u' ∧ p 'e' ∧ p 'f' ∧ p 'a' ∧ p 'l' ∧ p 's' := by
  simp [truthLetters]

theorem ascii_truthLetters : ∀ d ∈ truthLetters, d.toNat < 0x80 :=
  forall_truthLetters.mpr (by decide)

theorem le_small {r : CapitalRun} {m n : Nat} (hr : r ∈ capitals) (h : r.small? m = some n) :
    0x80 ≤ n ∨ n = 0x6b := by
  -- of all small letters in ASCII only `k` belongs to a capital beyond ASCII as well
  have hs : ∀ r ∈ capitals, (0x80 : Int) ≤ r.first + r.shift ∨
      r.first = r.last ∧ (r.first : Int) + r.shift = 0x6b := by decide +kernel
  rw [CapitalRun.small?] at h
  split at h
  · rename_i hm
    simp only [Bool.and_eq_true, decide_eq_true_eq, beq_iff_eq] at hm
    rw [Option.some.injEq] at h
    rcases hs r hr with hl | ⟨he, hk⟩ <;> omega
  · cases h

theorem toNat_ofNat {n : Nat} (h : 0 < (Char.ofNat n).toNat) : (Char.ofNat n).toNat = n := by
  by_cases hv : n.isValidChar
  · rw [Char.ofNat, dif_pos hv]
    rfl
  · rw [Char.ofNat, dif_neg hv] at h
    exact absurd h (by decide)

theorem not_mem_lowerChar (hc : 0x80 ≤ c.toNat) (hd : d ∈ truthLetters) : d ∉ lowerChar c := by
  have hr : ∀ d ∈ truthLetters, 0 < d.toNat ∧ d.toNat < 0x80 ∧ d.toNat ≠ 0x6b ∧
      d ∉ ['i', Char.ofNat 0x307] := forall_truthLetters.mpr (by decide)
  obtain ⟨hz, hl, hk, hi⟩ := hr d hd
  rw [lowerChar, if_neg (by omega)]
  split
  · exact hi
  · split
    · rename_i n hn
      obtain ⟨r, hm, hs⟩ := List.exists_of_findSome?_eq_some hn
      rw [List.mem_singleton]
      rintro rfl
      rw [toNat_ofNat hz] at hl hk
      rcases le_small hm hs with hn | hn <;> omega
    · rw [List.mem_singleton]
      rintro rfl
      omega

theorem lowerChar_ne_nil (c : Char) : lowerChar c ≠ [] := by
  unfold lowerChar
  split
  · exact List.cons_ne_nil _ _
  · split
    · exact List.cons_ne_nil _ _
    · split <;> exact List.cons_ne_nil _ _

theorem lowerFrom_of_ascii (h : ∀ c ∈ cs, c.toNat < 0x80) (cased : Bool) :
    lowerFrom cased cs = cs.map Char.toLower := by
  induction cs generalizing cased with
  | nil => rfl
  | cons c cs ih =>
    obtain ⟨hc, hs⟩ := List.forall_mem_cons.mp h
    have hn : c ≠ 'Σ' := by
      rintro rfl
      exact absurd hc (by decide)
    rw [lowerFrom, if_neg hn, lowerChar, if_pos hc, ih hs, List.map_cons, List.singleton_append]

theorem ascii_of_lowerFrom {cased : Bool} (h : ∀ d ∈ lowerFrom cased cs, d ∈ truthLetters) :
    ∀ c ∈ cs, c.toNat < 0x80 := by
  induction cs generalizing cased with
  | nil => exact fun c hc => absurd hc List.not_mem_nil
  | cons c cs ih =>
    rw [lowerFrom, List.forall_mem_append] at h
    refine List.forall_mem_cons.mpr ⟨?_, ih h.2⟩
    by_contra hc
    by_cases hs : c = 'Σ'
    · rw [if_pos hs] at h
      have hm := h.1 _ List.mem_cons_self
      split at hm <;> exact absurd hm (by decide)
    · rw [if_neg hs] at h
      obtain ⟨d, ds, hd⟩ := List.exists_cons_of_ne_nil (lowerChar_ne_nil c)
      have hm : d ∈ lowerChar c := hd ▸ List.mem_cons_self
      exact not_mem_lowerChar (by omega) (h.1 d hm) hm

theorem toNat_lt_of_toLower (h : c.toLower.toNat < 0x80) : c.toNat < 0x80 := by
  by_cases hu : c.val ≥ 'A'.val ∧ c.val ≤ 'Z'.val
  · have hl : c.toNat ≤ 90 := hu.2
    omega
  · have he : c.toLower = c := dif_neg hu
    rwa [he] at h

theorem lower_eq_iff {s w : String} (hw : w.toList ⊆ truthLetters) :
    lower s = w ↔ s.toList.map Char.toLower = w.toList := by
  rw [lower, ← String.toList_inj, String.toList_ofList]
  constructor
  · intro h
    rw [← h] at hw ⊢
    exact (lowerFrom_of_ascii (ascii_of_lowerFrom hw) false).symm
  · intro h
    rw [← h] at hw ⊢
    have ha : ∀ c ∈ s.toList, c.toNat < 0x80 := fun c hc =>
      toNat_lt_of_toLower (ascii_truthLetters _ (hw (List.mem_map_of_mem hc)))
    exact lowerFrom_of_ascii ha false

end SmallLetters

section TruthTexts

variable {c : Char} {cs : List Char}

/-- `true` or `false`, with each letter small or capital. -/
def IsTruthText (cs : List Char) : Prop :=
  cs.map Char.toLower = "true".toList ∨ cs.map Char.toLower = "false".toList

theorem IsTruthText.mem_letters (h : IsTruthText cs) (hc : c ∈ cs) : c.toLower ∈ truthLetters := by
  have hm : c.toLower ∈ cs.map Char.toLower := List.mem_map_of_mem hc
  have ht : "true".toList ⊆ truthLetters := by decide
  have hf : "false".toList ⊆ truthLetters := by decide
  rcases h with h | h
  · exact ht (h ▸ hm)
  · exact hf (h ▸ hm)

theorem not_numeral_of_toLower (h : c.toLower ∈ truthLetters) : isDigit c = false ∧ c ≠ '.' := by
  have hn : ∀ n < 0x80, (Char.ofNat n).toLower ∈ truthLetters →
      isDigit (Char.ofNat n) = false ∧ Char.ofNat n ≠ '.' := by decide
  have hc := hn c.toNat (toNat_lt_of_toLower (ascii_truthLetters _ h))
  rw [Char.ofNat_toNat] at hc
  exact hc h

theorem isTruth_lower_iff (s : String) : Kind.isTruth (lower s) ↔ IsTruthText s.toList := by
  rw [Kind.isTruth, Bool.or_eq_true, decide_eq_true_eq, decide_eq_true_eq,
    lower_eq_iff (by decide), lower_eq_iff (by decide), IsTruthText]

end TruthTexts

section Points

variable {cs : List Char}

theorem IsDecimalText.point_mem (h : IsDecimalText cs) : '.' ∈ cs := by
  obtain ⟨s, whole, fraction, x, -, -, -, rfl⟩ := h
  simp

theorem IsIntegerText.point_not_mem (h : IsIntegerText cs) : '.' ∉ cs :=
  h.not_mem (by decide) (by decide)

theorem IsTruthText.point_not_mem (h : IsTruthText cs) : '.' ∉ cs :=
  fun hc => (not_numeral_of_toLower (h.mem_letters hc)).2 rfl

theorem IsTruthText.not_integer (h : IsTruthText cs) : ¬ IsIntegerText cs := by
  rintro ⟨s, ds, -, hr, rfl⟩
  obtain ⟨c, ds, rfl⟩ := List.exists_cons_of_ne_nil hr.ne_nil
  have hd : isDigit c := (isRun_cons_iff.mp hr).1
  have hl : c.toLower ∈ truthLetters := h.mem_letters (by simp)
  exact Bool.false_ne_true ((not_numeral_of_toLower hl).1.symm.trans hd)

end Points

end Text

namespace Kind

open Text

variable {v : String}

theorem infer_eq_ite (v : String) : infer v =
    if isDecimal (trim v) then .double else if isInteger (trim v) then .integer
    else if isTruth (lower (trim v)) then .boolean else .string := by
  -- whether there is a point need not be asked: every decimal has one, and no integer has
  have hd : isDecimal (trim v) → (trim v).toList.contains '.' :=
    fun h => List.contains_iff_mem.mpr ((isDecimal_iff _).mp h).point_mem
  have hi : isInteger (trim v) → (trim v).toList.contains '.' = false := fun h => by
    rw [Bool.eq_false_iff, ne_eq, List.contains_iff_mem]
    exact ((isInteger_iff _).mp h).1.point_not_mem
  rw [infer]
  cases hp : (trim v).toList.contains '.' with
  | true =>
    have hn : ¬ isInteger (trim v) := fun h => Bool.false_ne_true ((hi h).symm.trans hp)
    simp [hn]
  | false =>
    have hn : ¬ isDecimal (trim v) := fun h => Bool.false_ne_true (hp.symm.trans (hd h))
    simp [hn]

theorem infer_eq_double_iff : infer v = .double ↔ IsDecimalText (trim v).toList := by
  rw [infer_eq_ite, ← isDecimal_iff]
  split_ifs with hd hi ht
  · exact iff_of_true rfl hd
  · exact iff_of_false id hd
  · exact iff_of_false id hd
  · exact iff_of_false id hd

theorem infer_eq_integer_iff : infer v = .integer ↔
    IsIntegerText (trim v).toList ∧ ((trim v).toList.filter isDigit).length ≤ digitLimit := by
  rw [infer_eq_ite, ← isInteger_iff]
  split_ifs with hd hi ht
  · refine iff_of_false id fun hi => ?_
    exact ((isInteger_iff _).mp hi).1.point_not_mem ((isDecimal_iff _).mp hd).point_mem
  · exact iff_of_true rfl hi
  · exact iff_of_false id hi
  · exact iff_of_false id hi

theorem infer_eq_boolean_iff : infer v = .boolean ↔ IsTruthText (trim v).toList := by
  rw [infer_eq_ite, ← isTruth_lower_iff]
  split_ifs with hd hi ht
  · refine iff_of_false id fun ht => ?_
    exact ((isTruth_lower_iff _).mp ht).point_not_mem ((isDecimal_iff _).mp hd).point_mem
  · refine iff_of_false id fun ht => ?_
    exact ((isTruth_lower_iff _).mp ht).not_integer ((isInteger_iff _).mp hi).1
  · exact iff_of_true rfl ht
  · exact iff_of_false id ht

theorem allBlank_of_infer (h : infer v ≠ .string) : allBlank v = false := by
  by_contra hb
  rw [Bool.not_eq_false, ← trim_eq_empty_iff] at hb
  apply h
  rw [infer_eq_ite, hb]
  decide

theorem infer_of_decimal (h : IsDecimalText v.toList) : infer v = .double := by
  rw [infer_eq_double_iff, trim, String.toList_ofList, trimChars_eq_self h.not_blank]
  exact h

theorem infer_of_integer (h : IsIntegerText v.toList)
    (hl : (v.toList.filter isDigit).length ≤ digitLimit) : infer v = .integer := by
  rw [infer_eq_integer_iff, trim, String.toList_ofList, trimChars_eq_self h.not_blank]
  exact ⟨h, hl⟩

theorem infer_mem (v : String) : infer v ∈ [Kind.double, .integer, .boolean, .string] := by
  rw [infer_eq_ite]
  split_ifs <;> decide

theorem infer_of_scaled {s x : List Char} {d : Char} (hs : IsSign s) (hd : d.isDigit)
    (hx : IsExponent x) (hv : v.toList = s ++ d :: x) : infer v = .string := by
  have hi : isDigit d := isDigit_of_ascii hd
  have hb : ∀ c ∈ v.toList, isBlank c = false := by
    rw [hv]
    exact List.forall_mem_append.mpr ⟨hs.not_blank,
      List.forall_mem_cons.mpr ⟨isBlank_of_isDigit hi, hx.not_blank⟩⟩
  have ht : (trim v).toList = s ++ d :: x := by
    rw [trim, String.toList_ofList, trimChars_eq_self hb, hv]
  rw [infer_eq_ite, if_neg, if_neg, if_neg]
  · rw [isTruth_lower_iff, ht]
    intro h
    have hl : d.toLower ∈ truthLetters := h.mem_letters (by simp)
    exact Bool.false_ne_true ((not_numeral_of_toLower hl).1.symm.trans hi)
  · rw [isInteger_iff, ht]
    rintro ⟨h, -⟩
    obtain ⟨mark, s', ds, hm, -, -, rfl⟩ := hx
    rw [isExponentMark, Bool.or_eq_true, decide_eq_true_eq, decide_eq_true_eq] at hm
    rcases hm with rfl | rfl
    · exact h.not_mem (c := 'e') (by decide) (by decide) (by simp)
    · exact h.not_mem (c := 'E') (by decide) (by decide) (by simp)
  · rw [isDecimal_iff, ht]
    intro h
    have hn : IsIntegerText (s ++ [d]) := ⟨s, [d], hs, .single hi, rfl⟩
    have hp : '.' ∈ (s ++ [d]) ++ x := by simpa using h.point_mem
    exact (List.mem_append.mp hp).elim hn.point_not_mem hx.point_not_mem

end Kind

end RuleTables
