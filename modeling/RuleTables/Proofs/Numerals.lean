import Mathlib.Data.List.TakeWhile
import RuleTables.Text.Blank
import RuleTables.Text.Numeral

namespace RuleTables.Text

section Runs

variable {c : Char} {cs ds : List Char}

/-- Digits, and single underscores between two of them. -/
inductive IsRun : List Char → Prop
  | single {c : Char} (hc : isDigit c) : IsRun [c]
  | cons {c : Char} {cs : List Char} (hc : isDigit c) (h : IsRun cs) : IsRun (c :: cs)
  | spaced {c : Char} {cs : List Char} (hc : isDigit c) (h : IsRun cs) : IsRun (c :: '_' :: cs)

theorem isRun_cons_iff : IsRun (c :: cs) ↔
    isDigit c ∧ (cs = [] ∨ IsRun cs ∨ ∃ ds, cs = '_' :: ds ∧ IsRun ds) := by
  constructor
  · intro h
    cases h with
    | single hc => exact ⟨hc, .inl rfl⟩
    | cons hc h => exact ⟨hc, .inr (.inl h)⟩
    | spaced hc h => exact ⟨hc, .inr (.inr ⟨_, rfl, h⟩)⟩
  · rintro ⟨hc, rfl | h | ⟨ds, rfl, h⟩⟩
    · exact .single hc
    · exact .cons hc h
    · exact .spaced hc h

theorem IsRun.ne_nil (h : IsRun cs) : cs ≠ [] := by
  cases h <;> exact List.cons_ne_nil _ _

theorem IsRun.isDigit_or (h : IsRun cs) : ∀ c ∈ cs, isDigit c ∨ c = '_' := by
  induction h with
  | single hc => simpa using .inl hc
  | cons hc h ih => exact List.forall_mem_cons.mpr ⟨.inl hc, ih⟩
  | spaced hc h ih =>
    exact List.forall_mem_cons.mpr ⟨.inl hc, List.forall_mem_cons.mpr ⟨.inr rfl, ih⟩⟩

theorem IsRun.not_mem (h : IsRun cs) (hd : isDigit c = false) (hu : c ≠ '_') : c ∉ cs := by
  intro hc
  rcases h.isDigit_or c hc with hi | rfl
  · exact Bool.false_ne_true (hd.symm.trans hi)
  · exact hu rfl

theorem isRun_of_digits (hn : cs ≠ []) (h : ∀ c ∈ cs, isDigit c) : IsRun cs := by
  induction cs with
  | nil => exact absurd rfl hn
  | cons c cs ih =>
    obtain ⟨hc, hs⟩ := List.forall_mem_cons.mp h
    by_cases he : cs = []
    · subst he
      exact .single hc
    · exact .cons hc (ih he hs)

theorem isDigitTail_iff (cs : List Char) :
    isDigitTail cs ↔ cs = [] ∨ IsRun cs ∨ ∃ ds, cs = '_' :: ds ∧ IsRun ds := by
  have hu : ∀ cs, ¬ IsRun ('_' :: cs) := fun cs h => by
    have hd : isDigit '_' := (isRun_cons_iff.mp h).1
    exact absurd hd (by decide)
  fun_induction isDigitTail cs with
  | case1 => simp
  | case2 c cs ih =>
    simp only [Bool.and_eq_true, ih, ← isRun_cons_iff]
    simp [hu]
  | case3 c cs hs ih =>
    simp only [Bool.and_eq_true, ih, ← isRun_cons_iff]
    constructor
    · exact fun h => .inr (.inl h)
    · rintro (h | h | ⟨ds, he, h⟩)
      · cases h
      · exact h
      · obtain ⟨rfl, rfl⟩ := List.cons.inj he
        obtain ⟨d, ds, rfl⟩ := List.exists_cons_of_ne_nil h.ne_nil
        exact absurd rfl (hs d ds rfl)

theorem isDigitRun_iff : isDigitRun cs ↔ IsRun cs := by
  cases cs with
  | nil => exact iff_of_false Bool.false_ne_true fun h => h.ne_nil rfl
  | cons c cs => rw [isDigitRun, Bool.and_eq_true, isDigitTail_iff, isRun_cons_iff]

theorem isDigit_of_ascii (h : c.isDigit) : isDigit c := by
  rw [Char.isDigit, Bool.and_eq_true, decide_eq_true_eq, decide_eq_true_eq] at h
  rw [isDigit, digitValue?, Option.isSome_map, List.find?_isSome]
  refine ⟨0x30, by decide, ?_⟩
  have hl : 48 ≤ c.toNat := h.1
  have hh : c.toNat ≤ 57 := h.2
  rw [Bool.and_eq_true, decide_eq_true_eq, decide_eq_true_eq]
  omega

def IsDigits (cs : List Char) : Prop := cs ≠ [] ∧ ∀ c ∈ cs, c.isDigit

theorem IsDigits.isRun (h : IsDigits cs) : IsRun cs :=
  isRun_of_digits h.1 fun c hc => isDigit_of_ascii (h.2 c hc)

end Runs

section Signs

variable {s cs : List Char}

def IsSign (s : List Char) : Prop := s = [] ∨ s = ['+'] ∨ s = ['-']

theorem exists_sign (cs : List Char) : ∃ s, IsSign s ∧ cs = s ++ dropSign cs := by
  unfold dropSign
  split
  · exact ⟨['+'], .inr (.inl rfl), rfl⟩
  · exact ⟨['-'], .inr (.inr rfl), rfl⟩
  · exact ⟨[], .inl rfl, rfl⟩

theorem dropSign_append (hs : IsSign s) (hp : cs.head? ≠ some '+') (hm : cs.head? ≠ some '-') :
    dropSign (s ++ cs) = cs := by
  rcases hs with rfl | rfl | rfl
  · cases cs with
    | nil => rfl
    | cons c cs =>
      rw [List.head?_cons, ne_eq, Option.some.injEq] at hp hm
      simp [dropSign, hp, hm]
  · rfl
  · rfl

theorem IsRun.dropSign_append (h : IsRun cs) (hs : IsSign s) : dropSign (s ++ cs) = cs := by
  apply Text.dropSign_append hs
  · exact fun he => h.not_mem (by decide) (by decide) (List.mem_of_mem_head? he)
  · exact fun he => h.not_mem (by decide) (by decide) (List.mem_of_mem_head? he)

theorem IsSign.filter_isDigit (hs : IsSign s) : s.filter isDigit = [] := by
  rcases hs with rfl | rfl | rfl <;> decide

end Signs

section Integers

variable {c : Char} {cs : List Char}

def IsIntegerText (cs : List Char) : Prop := ∃ s ds, IsSign s ∧ IsRun ds ∧ cs = s ++ ds

theorem IsIntegerText.not_mem (h : IsIntegerText cs) (hd : isDigit c = false)
    (hc : c ∉ ['_', '+', '-']) : c ∉ cs := by
  obtain ⟨s, ds, hs, hr, rfl⟩ := h
  simp only [List.mem_cons, List.not_mem_nil, or_false, not_or] at hc
  rw [List.mem_append, not_or]
  refine ⟨?_, hr.not_mem hd hc.1⟩
  rcases hs with rfl | rfl | rfl
  · exact List.not_mem_nil
  · simpa using hc.2.1
  · simpa using hc.2.2

theorem isInteger_iff (s : String) : isInteger s ↔
    IsIntegerText s.toList ∧ (s.toList.filter isDigit).length ≤ digitLimit := by
  obtain ⟨sign, hs, he⟩ := exists_sign s.toList
  have hf : s.toList.filter isDigit = (dropSign s.toList).filter isDigit := by
    calc s.toList.filter isDigit = (sign ++ dropSign s.toList).filter isDigit :=
          congrArg (List.filter isDigit) he
      _ = (dropSign s.toList).filter isDigit := by
          rw [List.filter_append, hs.filter_isDigit, List.nil_append]
  rw [isInteger, Bool.and_eq_true, decide_eq_true_eq, hf, isDigitRun_iff]
  apply and_congr_left'
  constructor
  · exact fun h => ⟨sign, _, hs, h, he⟩
  · rintro ⟨sign', ds, hs', h, he'⟩
    rwa [he', h.dropSign_append hs']

end Integers

section Decimals

variable {cs : List Char}

def IsPart (ds : List Char) : Prop := ds = [] ∨ IsRun ds

theorem IsPart.not_mem {ds : List Char} {c : Char} (h : IsPart ds) (hd : isDigit c = false)
    (hu : c ≠ '_') : c ∉ ds := by
  rcases h with rfl | h
  · exact List.not_mem_nil
  · exact h.not_mem hd hu

/-- A point, with a run on one side of it or on both. -/
structure IsMantissa (whole fraction : List Char) : Prop where
  left : IsPart whole
  right : IsPart fraction
  ne_nil : whole ≠ [] ∨ fraction ≠ []

theorem IsDigits.isMantissa {whole fraction : List Char} (hw : IsDigits whole)
    (hf : IsDigits fraction) : IsMantissa whole fraction :=
  ⟨.inr hw.isRun, .inr hf.isRun, .inl hw.1⟩

theorem takeWhile_append_cons {p : Char → Bool} {xs ys : List Char} {b : Char}
    (hx : ∀ c ∈ xs, p c) (hb : p b = false) : (xs ++ b :: ys).takeWhile p = xs := by
  rw [List.takeWhile_append_of_pos hx, List.takeWhile_cons_of_neg (by simp [hb]), List.append_nil]

theorem dropWhile_append_cons {p : Char → Bool} {xs ys : List Char} {b : Char}
    (hx : ∀ c ∈ xs, p c) (hb : p b = false) : (xs ++ b :: ys).dropWhile p = b :: ys := by
  rw [List.dropWhile_append_of_pos hx, List.dropWhile_cons_of_neg (by simp [hb])]

theorem isPointed_iff : isPointed cs ↔
    ∃ whole fraction, IsMantissa whole fraction ∧ cs = whole ++ '.' :: fraction := by
  have hp : ∀ {w f : List Char}, (isDigitRun w || isDigitRun f) && (w.isEmpty || isDigitRun w) &&
      (f.isEmpty || isDigitRun f) ↔ IsMantissa w f := by
    intro w f
    simp only [Bool.and_eq_true, Bool.or_eq_true, isDigitRun_iff, List.isEmpty_iff]
    constructor
    · rintro ⟨⟨h, hw⟩, hf⟩
      exact ⟨hw, hf, h.imp IsRun.ne_nil IsRun.ne_nil⟩
    · rintro ⟨hw, hf, h⟩
      exact ⟨⟨h.imp hw.resolve_left hf.resolve_left, hw⟩, hf⟩
  constructor
  · intro h
    have hc : cs = cs.takeWhile (· != '.') ++ cs.dropWhile (· != '.') :=
      List.takeWhile_append_dropWhile.symm
    rw [isPointed] at h
    split at h
    · cases h
    · rename_i x fraction hd
      have hx : x = '.' := by
        have hh := List.head?_dropWhile_not (· != '.') cs
        rw [hd] at hh
        simpa using hh
      rw [hd, hx] at hc
      exact ⟨_, fraction, hp.mp h, hc⟩
  · rintro ⟨whole, fraction, h, rfl⟩
    have hw : ∀ c ∈ whole, (c != '.') = true := by
      intro c hc
      rw [bne_iff_ne]
      rintro rfl
      exact h.left.not_mem (by decide) (by decide) hc
    rw [isPointed, takeWhile_append_cons hw (by decide), dropWhile_append_cons hw (by decide)]
    exact hp.mpr h

/-- A mark, an optional sign and a run. -/
def IsExponent (cs : List Char) : Prop :=
  ∃ mark s ds, isExponentMark mark ∧ IsSign s ∧ IsRun ds ∧ cs = mark :: s ++ ds

theorem IsExponent.point_not_mem (h : IsExponent cs) : '.' ∉ cs := by
  obtain ⟨mark, s, ds, hm, hs, hr, rfl⟩ := h
  have hi : IsIntegerText (s ++ ds) := ⟨s, ds, hs, hr, rfl⟩
  rw [List.cons_append, List.mem_cons, not_or]
  constructor
  · rintro rfl
    exact absurd hm (by decide)
  · exact hi.not_mem (by decide) (by decide)

def IsDecimalText (cs : List Char) : Prop :=
  ∃ s whole fraction x, IsSign s ∧ IsMantissa whole fraction ∧ (x = [] ∨ IsExponent x) ∧
    cs = s ++ (whole ++ '.' :: fraction) ++ x

theorem IsMantissa.isDigit_or {whole fraction : List Char} (h : IsMantissa whole fraction) :
    ∀ c ∈ whole ++ '.' :: fraction, isDigit c ∨ c = '_' ∨ c = '.' := by
  have hp : ∀ {ds : List Char}, IsPart ds → ∀ c ∈ ds, isDigit c ∨ c = '_' ∨ c = '.' := by
    rintro ds (rfl | hr) c hc
    · cases hc
    · exact (hr.isDigit_or c hc).imp_right .inl
  intro c hc
  rcases List.mem_append.mp hc with hc | hc
  · exact hp h.left c hc
  · rcases List.mem_cons.mp hc with rfl | hc
    · exact .inr (.inr rfl)
    · exact hp h.right c hc

theorem IsMantissa.not_mem {whole fraction : List Char} {c : Char} (h : IsMantissa whole fraction)
    (hd : isDigit c = false) (hu : c ≠ '_') (hp : c ≠ '.') : c ∉ whole ++ '.' :: fraction := by
  intro hc
  rcases h.isDigit_or c hc with hi | rfl | rfl
  · exact Bool.false_ne_true (hd.symm.trans hi)
  · exact hu rfl
  · exact hp rfl

theorem IsMantissa.dropSign_append {s whole fraction x : List Char}
    (h : IsMantissa whole fraction) (hs : IsSign s) :
    dropSign (s ++ (whole ++ '.' :: fraction) ++ x) = whole ++ '.' :: fraction ++ x := by
  have hh : ∀ c, isDigit c = false → c ≠ '_' → c ≠ '.' →
      (whole ++ '.' :: fraction ++ x).head? ≠ some c := by
    intro c hd hu hp he
    obtain ⟨a, m, hm⟩ : ∃ a m, whole ++ '.' :: fraction = a :: m :=
      List.exists_cons_of_ne_nil (by simp)
    rw [hm, List.cons_append, List.head?_cons, Option.some.injEq] at he
    exact h.not_mem hd hu hp (hm ▸ he ▸ List.mem_cons_self)
  rw [List.append_assoc]
  apply Text.dropSign_append hs
  · exact hh '+' (by decide) (by decide) (by decide)
  · exact hh '-' (by decide) (by decide) (by decide)

theorem isDecimal_iff (s : String) : isDecimal s ↔ IsDecimalText s.toList := by
  rw [isDecimal]
  constructor
  · intro h
    obtain ⟨sign, hs, he⟩ := exists_sign s.toList
    have hu : dropSign s.toList = (dropSign s.toList).takeWhile (!isExponentMark ·) ++
        (dropSign s.toList).dropWhile (!isExponentMark ·) :=
      List.takeWhile_append_dropWhile.symm
    split at h
    · rename_i hd
      obtain ⟨whole, fraction, hm, hw⟩ := isPointed_iff.mp h
      refine ⟨sign, whole, fraction, [], hs, hm, .inl rfl, ?_⟩
      rw [hd, hw, List.append_nil] at hu
      rw [he, hu, List.append_nil]
    · rename_i mark exponent hd
      obtain ⟨hp, hr⟩ := Bool.and_eq_true_iff.mp h
      obtain ⟨whole, fraction, hm, hw⟩ := isPointed_iff.mp hp
      obtain ⟨sign', hs', he'⟩ := exists_sign exponent
      have hk : isExponentMark mark := by
        have hh := List.head?_dropWhile_not (!isExponentMark ·) (dropSign s.toList)
        rw [hd] at hh
        simpa using hh
      refine ⟨sign, whole, fraction, mark :: exponent, hs, hm,
        .inr ⟨mark, sign', dropSign exponent, hk, hs', isDigitRun_iff.mp hr, ?_⟩, ?_⟩
      · rw [List.cons_append, ← he']
      · rw [hd, hw] at hu
        rw [he, hu]
        simp only [List.append_assoc]
  · rintro ⟨sign, whole, fraction, x, hs, hm, hx, he⟩
    have hk : ∀ c ∈ whole ++ '.' :: fraction, (!isExponentMark c) = true := by
      intro c hc
      rw [Bool.not_eq_true', isExponentMark, Bool.or_eq_false_iff, decide_eq_false_iff_not,
        decide_eq_false_iff_not]
      constructor
      · rintro rfl
        exact hm.not_mem (by decide) (by decide) (by decide) hc
      · rintro rfl
        exact hm.not_mem (by decide) (by decide) (by decide) hc
    have hp : isPointed (whole ++ '.' :: fraction) := isPointed_iff.mpr ⟨_, _, hm, rfl⟩
    rw [he, hm.dropSign_append hs]
    rcases hx with rfl | ⟨mark, sign', ds, hmark, hs', hr, rfl⟩
    · rw [List.append_nil, List.takeWhile_eq_self_iff.mpr hk, List.dropWhile_eq_nil_iff.mpr hk]
      exact hp
    · have hb : (!isExponentMark mark) = false := by rw [hmark]; rfl
      rw [List.cons_append, takeWhile_append_cons hk hb, dropWhile_append_cons hk hb]
      exact Bool.and_eq_true_iff.mpr ⟨hp, isDigitRun_iff.mpr (by rwa [hr.dropSign_append hs'])⟩

end Decimals

section Blanks

variable {c : Char} {cs : List Char}

theorem allBlank_of_mem {s : String} (hc : c ∈ s.toList) (hb : isBlank c = false) :
    allBlank s = false := by
  rw [allBlank, List.all_eq_false]
  exact ⟨c, hc, Bool.eq_false_iff.mp hb⟩

theorem isBlank_of_isDigit (h : isDigit c) : isBlank c = false := by
  have hd : ∀ z ∈ zeros, ∀ r ∈ blanks, z + 9 < r.1 ∨ r.2 < z := by decide
  rw [isDigit, digitValue?, Option.isSome_map, List.find?_isSome] at h
  obtain ⟨z, hz, hc⟩ := h
  rw [Bool.and_eq_true, decide_eq_true_eq, decide_eq_true_eq] at hc
  rw [isBlank, List.any_eq_false]
  intro r hr hb
  rw [Bool.and_eq_true, decide_eq_true_eq, decide_eq_true_eq] at hb
  have := hd z hz r hr
  omega

theorem IsRun.not_blank (h : IsRun cs) : ∀ c ∈ cs, isBlank c = false := by
  intro c hc
  rcases h.isDigit_or c hc with hd | rfl
  · exact isBlank_of_isDigit hd
  · decide

theorem IsSign.not_blank (h : IsSign cs) : ∀ c ∈ cs, isBlank c = false := by
  rcases h with rfl | rfl | rfl
  · exact List.forall_mem_nil _
  · exact List.forall_mem_singleton.mpr (by decide)
  · exact List.forall_mem_singleton.mpr (by decide)

theorem IsExponent.not_blank (h : IsExponent cs) : ∀ c ∈ cs, isBlank c = false := by
  obtain ⟨mark, s, ds, hm, hs, hr, rfl⟩ := h
  rw [isExponentMark, Bool.or_eq_true, decide_eq_true_eq, decide_eq_true_eq] at hm
  rw [List.cons_append, List.forall_mem_cons, List.forall_mem_append]
  refine ⟨?_, hs.not_blank, hr.not_blank⟩
  rcases hm with rfl | rfl <;> decide

theorem IsIntegerText.not_blank (h : IsIntegerText cs) : ∀ c ∈ cs, isBlank c = false := by
  obtain ⟨s, ds, hs, hr, rfl⟩ := h
  exact List.forall_mem_append.mpr ⟨hs.not_blank, hr.not_blank⟩

theorem IsDecimalText.not_blank (h : IsDecimalText cs) : ∀ c ∈ cs, isBlank c = false := by
  obtain ⟨s, whole, fraction, x, hs, hm, hx, rfl⟩ := h
  rw [List.forall_mem_append, List.forall_mem_append]
  refine ⟨⟨hs.not_blank, fun c hc => ?_⟩, ?_⟩
  · rcases hm.isDigit_or c hc with hd | rfl | rfl
    · exact isBlank_of_isDigit hd
    · decide
    · decide
  · rcases hx with rfl | hx
    · exact List.forall_mem_nil _
    · exact hx.not_blank

end Blanks

end RuleTables.Text
