import Mathlib.Data.List.TakeWhile
import Mathlib.Data.Nat.Digits.Defs
import Mathlib.Tactic.Ring
import RuleTables.Binary64.Shortest

namespace RuleTables.Binary64

section Powers

variable {n d k : Nat} {t : Int}

def up (t : Int) : Nat := 10 ^ t.toNat

def down (t : Int) : Nat := 10 ^ (-t).toNat

theorem up_pos (t : Int) : 0 < up t := Nat.pow_pos (by decide)

theorem down_pos (t : Int) : 0 < down t := Nat.pow_pos (by decide)

theorem up_eq (t : Int) : (if 0 ≤ t then Nat.pow 10 t.toNat else 1) = up t := by
  split
  · rfl
  · rw [up, Int.toNat_of_nonpos (by omega), Nat.pow_zero]

theorem down_eq (t : Int) : (if 0 ≤ t then 1 else Nat.pow 10 (-t).toNat) = down t := by
  split
  · rw [down, Int.toNat_of_nonpos (by omega), Nat.pow_zero]
  · rfl

theorem up_mul_down (t : Int) (k : Nat) :
    up t * 10 ^ k * down (t + k) = up (t + k) * down t := by
  rw [up, down, up, down, ← Nat.pow_add, ← Nat.pow_add, ← Nat.pow_add]
  congr 1
  omega

theorem pow_le_of_lt_length (hn : 0 < n) (h : k < (Nat.toDigits 10 n).length) : 10 ^ k ≤ n := by
  by_cases hk : k = 0
  · subst hk
    exact hn
  · by_contra hl
    have := (Nat.length_toDigits_le_iff (by decide) (Nat.pos_of_ne_zero hk)).mpr
      (Nat.lt_of_not_le hl)
    omega

theorem lt_pow_length (n : Nat) : n < 10 ^ (Nat.toDigits 10 n).length :=
  (Nat.length_toDigits_le_iff (by decide) Nat.length_toDigits_pos).mp le_rfl

theorem up_mul_le (hn : 0 < n) (hd : 0 < d) (ht : t < decimalPoint n d) :
    up t * d ≤ n * down t := by
  rw [decimalPoint] at ht
  split at ht
  · rename_i hl
    have hq : 10 ^ t.toNat ≤ n / d := by
      have hk : 0 < (Nat.toDigits 10 (n / d)).length := Nat.length_toDigits_pos
      exact pow_le_of_lt_length (Nat.div_pos hl hd) (by omega)
    calc up t * d ≤ n := (Nat.le_div_iff_mul_le hd).mp hq
      _ ≤ n * down t := Nat.le_mul_of_pos_right n (down_pos t)
  · have hk : 0 < (Nat.toDigits 10 (d / n)).length := Nat.length_toDigits_pos
    have hu : up t = 1 := by rw [up, Int.toNat_of_nonpos (by omega), Nat.pow_zero]
    calc up t * d = d := by rw [hu, Nat.one_mul]
      _ ≤ n * 10 ^ (Nat.toDigits 10 (d / n)).length := by
          rw [Nat.mul_comm]
          exact ((Nat.div_lt_iff_lt_mul hn).mp (lt_pow_length _)).le
      _ ≤ n * down t := Nat.mul_le_mul_left n (Nat.pow_le_pow_right (by decide) (by omega))

end Powers

namespace Span

variable {s : Span} {c : Nat} {t : Int}

/-- The bounds lie around the size, and not too near for decimals of seventeen digits. -/
structure IsWide (s : Span) : Prop where
  unit_pos : 0 < s.unit
  low_lt : s.low < s.size
  lt_high : s.size < s.high
  width : s.size + 10 ^ 16 * s.low < 10 ^ 16 * s.high

def cell (s : Span) (t : Int) : Nat := up t * s.unit

theorem IsWide.cell_pos (h : s.IsWide) (t : Int) : 0 < s.cell t :=
  Nat.mul_pos (up_pos t) h.unit_pos

def floor (s : Span) (t : Int) : Nat := s.size * down t / s.cell t

theorem holds_iff : s.holds c t ↔
    if s.closed then s.low * down t ≤ c * s.cell t ∧ c * s.cell t ≤ s.high * down t
    else s.low * down t < c * s.cell t ∧ c * s.cell t < s.high * down t := by
  rw [holds, up_eq, down_eq, Nat.mul_assoc, ← cell]
  split
  · rw [Bool.and_eq_true, decide_eq_true_eq, decide_eq_true_eq]
  · rw [Bool.and_eq_true, decide_eq_true_eq, decide_eq_true_eq]

theorem holds_of_between (hl : s.low * down t < c * s.cell t)
    (hh : c * s.cell t < s.high * down t) : s.holds c t := by
  rw [holds_iff]
  split
  · exact ⟨hl.le, hh.le⟩
  · exact ⟨hl, hh⟩

theorem holds_mul_pow (k : Nat) : s.holds (c * 10 ^ k) t ↔ s.holds c (t + k) := by
  have hu := up_mul_down t k
  have he : c * 10 ^ k * s.cell t * down (t + k) = c * s.cell (t + k) * down t := by
    calc c * 10 ^ k * s.cell t * down (t + k)
        = c * s.unit * (up t * 10 ^ k * down (t + k)) := by rw [cell]; ring
      _ = c * s.cell (t + k) * down t := by rw [hu, cell]; ring
  have hm : ∀ m, m * down t * down (t + k) = m * down (t + k) * down t :=
    fun m => Nat.mul_right_comm m _ _
  have hle : ∀ m, m * down t ≤ c * 10 ^ k * s.cell t ↔ m * down (t + k) ≤ c * s.cell (t + k) := by
    intro m
    rw [← Nat.mul_le_mul_right_iff (down_pos (t + k)), hm, he,
      Nat.mul_le_mul_right_iff (down_pos t)]
  have hge : ∀ m, c * 10 ^ k * s.cell t ≤ m * down t ↔ c * s.cell (t + k) ≤ m * down (t + k) := by
    intro m
    rw [← Nat.mul_le_mul_right_iff (down_pos (t + k)), hm, he,
      Nat.mul_le_mul_right_iff (down_pos t)]
  rw [holds_iff, holds_iff]
  split
  · rw [hle, hge]
  · rw [← not_le, hge, ← not_le, hle, not_le, not_le]

theorem of_onGrid_eq_some (h : s.onGrid t = some c) : s.floor t ≤ c ∧ s.holds c t := by
  simp only [onGrid, up_eq, down_eq] at h
  rw [← cell, ← floor] at h
  split at h
  · rename_i hf hs
    rw [Option.some.injEq] at h
    subst h
    split
    · exact ⟨le_rfl, hf⟩
    · exact ⟨Nat.le_succ _, hs⟩
  · rename_i hf _
    rw [Option.some.injEq] at h
    subst h
    exact ⟨le_rfl, hf⟩
  · rename_i _ hs
    rw [Option.some.injEq] at h
    subst h
    exact ⟨Nat.le_succ _, hs⟩
  · cases h

theorem of_onGrid_eq_none (h : s.onGrid t = none) :
    ¬ s.holds (s.floor t) t ∧ ¬ s.holds (s.floor t + 1) t := by
  simp only [onGrid, up_eq, down_eq] at h
  rw [← cell, ← floor] at h
  split at h
  · cases h
  · cases h
  · cases h
  · rename_i hf hs
    exact ⟨Bool.eq_false_iff.mp hf, Bool.eq_false_iff.mp hs⟩

theorem IsWide.onGrid_ne_none (h : s.IsWide) (ht : 10 ^ 16 * s.cell t ≤ s.size * down t) :
    s.onGrid t ≠ none := by
  intro hn
  obtain ⟨hf, hs⟩ := of_onGrid_eq_none hn
  have hle : s.floor t * s.cell t ≤ s.size * down t := Nat.div_mul_le_self _ _
  have hlt : s.size * down t < (s.floor t + 1) * s.cell t :=
    (Nat.div_lt_iff_lt_mul (h.cell_pos t)).mp (Nat.lt_succ_self _)
  have hlow : s.low * down t < s.size * down t := Nat.mul_lt_mul_of_pos_right h.low_lt (down_pos t)
  have hhigh : s.size * down t < s.high * down t :=
    Nat.mul_lt_mul_of_pos_right h.lt_high (down_pos t)
  have hbelow : s.floor t * s.cell t ≤ s.low * down t := by
    by_contra hc
    exact hf (holds_of_between (by omega) (by omega))
  have habove : s.high * down t ≤ (s.floor t + 1) * s.cell t := by
    by_contra hc
    exact hs (holds_of_between (by omega) (by omega))
  have hwidth : s.size * down t + 10 ^ 16 * (s.low * down t) < 10 ^ 16 * (s.high * down t) := by
    have := Nat.mul_lt_mul_of_pos_right h.width (down_pos t)
    rwa [Nat.add_mul, Nat.mul_assoc, Nat.mul_assoc] at this
  rw [Nat.add_mul, Nat.one_mul] at habove
  omega

theorem IsWide.size_pos (h : s.IsWide) : 0 < s.size := Nat.zero_lt_of_lt h.low_lt

theorem IsWide.cell_le (h : s.IsWide) (ht : t < decimalPoint s.size s.unit) :
    s.cell t ≤ s.size * down t :=
  up_mul_le h.size_pos h.unit_pos ht

theorem IsWide.cell_le_fine (h : s.IsWide) (ht : t + 16 < decimalPoint s.size s.unit) :
    10 ^ 16 * s.cell t ≤ s.size * down t := by
  have hu : up t * 10 ^ 16 * down (t + 16) = up (t + 16) * down t := up_mul_down t 16
  apply Nat.le_of_mul_le_mul_right _ (down_pos (t + 16))
  calc 10 ^ 16 * s.cell t * down (t + 16) = up t * 10 ^ 16 * down (t + 16) * s.unit := by
        rw [cell]
        ring
    _ = s.cell (t + 16) * down t := by
        rw [hu, cell]
        ring
    _ ≤ s.size * down (t + 16) * down t := Nat.mul_le_mul_right _ (h.cell_le ht)
    _ = s.size * down t * down (t + 16) := Nat.mul_right_comm _ _ _

theorem IsWide.search_holds (h : s.IsWide) (fuel n : Nat) (hn : 1 ≤ n) (hf : n + fuel = 17) :
    0 < (s.search (decimalPoint s.size s.unit) fuel n).1 ∧
      s.holds (s.search (decimalPoint s.size s.unit) fuel n).1
        (s.search (decimalPoint s.size s.unit) fuel n).2 := by
  -- the last of the seventeen grids is finer than the span is wide, and even on the first one no
  -- decimal is zero
  have hpos : ∀ {t c}, t < decimalPoint s.size s.unit → s.onGrid t = some c →
      0 < c ∧ s.holds c t := by
    intro t c ht hc
    obtain ⟨hl, hh⟩ := of_onGrid_eq_some hc
    exact ⟨Nat.lt_of_lt_of_le (Nat.div_pos (h.cell_le ht) (h.cell_pos t)) hl, hh⟩
  induction fuel generalizing n with
  | zero =>
    obtain ⟨c, hc⟩ := Option.ne_none_iff_exists'.mp (h.onGrid_ne_none
      (h.cell_le_fine (t := decimalPoint s.size s.unit - n) (by omega)))
    rw [search, hc, Option.getD_some]
    exact hpos (by omega) hc
  | succ fuel ih =>
    rw [search]
    split
    · rename_i c hc
      exact hpos (by omega) hc
    · exact ih (n + 1) (by omega) (by omega)

end Span

section Numbers

variable {x : Binary64}

theorem mantissa_lt (x : Binary64) : x.mantissa < 2 * fractions := by
  have hf : x.fractionField < fractions := Nat.mod_lt _ (by decide)
  rw [mantissa]
  split <;> omega

theorem mantissa_of_narrow (h : x.fractionField = 0) (he : 1 < x.exponentField) :
    x.mantissa = fractions := by
  rw [mantissa, if_neg (by omega), h, Nat.zero_add]

theorem width_of_bits {m g k : Nat} (hk : 0 < k) (hg : g ≤ 4 * m)
    (h : 4 * m < 10 ^ 16 * (g + 2)) :
    4 * m * k + 10 ^ 16 * ((4 * m - g) * k) < 10 ^ 16 * ((4 * m + 2) * k) := by
  have hl : 4 * m + 10 ^ 16 * (4 * m - g) < 10 ^ 16 * (4 * m + 2) := by omega
  have := Nat.mul_lt_mul_of_pos_right hl hk
  rwa [Nat.add_mul, Nat.mul_assoc (10 ^ 16), Nat.mul_assoc (10 ^ 16)] at this

/-- How far below a number its span begins, in quarters of its last place: below a power of two
numbers lie twice as close. -/
def gap (x : Binary64) : Nat :=
  if x.fractionField = 0 && 1 < x.exponentField then 1 else 2

theorem gap_bounds (h : x.mantissa ≠ 0) :
    0 < x.gap ∧ x.gap ≤ 4 * x.mantissa ∧ 4 * x.mantissa < 10 ^ 16 * (x.gap + 2) := by
  have hm := mantissa_lt x
  have hf : fractions = 2 ^ 52 := by decide
  rw [gap]
  split
  · rename_i hn
    rw [Bool.and_eq_true, decide_eq_true_eq, decide_eq_true_eq] at hn
    have he := mantissa_of_narrow hn.1 hn.2
    omega
  · omega

theorem span_isWide (h : x.mantissa ≠ 0) : x.span.IsWide := by
  obtain ⟨hg, hl, hw⟩ := gap_bounds h
  have hk : 0 < if 0 ≤ x.power - 2 then Nat.pow 2 (x.power - 2).toNat else 1 := by
    split
    · exact Nat.pow_pos (by decide)
    · decide
  rw [span, ← gap]
  constructor
  · dsimp only
    split
    · decide
    · exact Nat.pow_pos (by decide)
  · exact Nat.mul_lt_mul_of_pos_right (by omega) hk
  · exact Nat.mul_lt_mul_of_pos_right (by omega) hk
  · exact width_of_bits hk hl hw

theorem shortest_eq (h : x.mantissa ≠ 0) : ∃ c t, 0 < c ∧ x.span.holds c t ∧
    x.shortest = (dropZeros (Nat.toDigits 10 c), (Nat.toDigits 10 c).length + t) := by
  obtain ⟨hc, hh⟩ := (span_isWide h).search_holds 16 1 le_rfl rfl
  exact ⟨_, _, hc, hh, rfl⟩

end Numbers

section Digits

variable {x : Binary64} {ds : List Char}

theorem exists_zeros (ds : List Char) : ∃ k, ds = dropZeros ds ++ zeros k := by
  have hz : (ds.reverse.takeWhile (· = '0')).reverse =
      zeros (ds.reverse.takeWhile (· = '0')).length := by
    rw [zeros, List.eq_replicate_iff]
    refine ⟨List.length_reverse, fun d hd => ?_⟩
    exact of_decide_eq_true
      (List.mem_takeWhile_imp (p := fun c => decide (c = '0')) (List.mem_reverse.mp hd))
  exact ⟨(ds.reverse.takeWhile (· = '0')).length, calc
    ds = ds.reverse.reverse := ds.reverse_reverse.symm
    _ = (ds.reverse.takeWhile (· = '0') ++ ds.reverse.dropWhile (· = '0')).reverse := by
        rw [List.takeWhile_append_dropWhile]
    _ = dropZeros ds ++ zeros (ds.reverse.takeWhile (· = '0')).length := by
        rw [List.reverse_append, hz, dropZeros]⟩

theorem mem_of_mem_dropZeros {d : Char} (h : d ∈ dropZeros ds) : d ∈ ds := by
  obtain ⟨k, hk⟩ := exists_zeros ds
  rw [hk]
  exact List.mem_append_left _ h

theorem ofDigitChars_append_zeros (ds : List Char) (k : Nat) :
    Nat.ofDigitChars 10 (ds ++ zeros k) 0 = Nat.ofDigitChars 10 ds 0 * 10 ^ k := by
  rw [Nat.ofDigitChars_append, zeros, Nat.ofDigitChars_replicate_zero, Nat.mul_comm]

/-- The decimal that the digits and the point stand for is not zero and reads back as the number. -/
theorem shortest_holds (h : x.mantissa ≠ 0) :
    0 < Nat.ofDigitChars 10 x.shortest.1 0 ∧
      x.span.holds (Nat.ofDigitChars 10 x.shortest.1 0) (x.shortest.2 - x.shortest.1.length) := by
  obtain ⟨c, t, hc, hh, he⟩ := shortest_eq h
  obtain ⟨k, hk⟩ := exists_zeros (Nat.toDigits 10 c)
  rw [he]
  dsimp only
  generalize dropZeros (Nat.toDigits 10 c) = ds at hk ⊢
  have hv : c = Nat.ofDigitChars 10 ds 0 * 10 ^ k := by
    rw [← ofDigitChars_append_zeros, ← hk, Nat.ofDigitChars_ten_toDigits]
  have hp : ((Nat.toDigits 10 c).length : Int) + t - ds.length = t + k := by
    rw [hk, List.length_append, zeros, List.length_replicate]
    omega
  constructor
  · by_contra hz
    rw [Nat.eq_zero_of_not_pos hz, Nat.zero_mul] at hv
    omega
  · rwa [hp, ← Span.holds_mul_pow, ← hv]

theorem shortest_ne_nil (h : x.mantissa ≠ 0) : x.shortest.1 ≠ [] := by
  intro hn
  have hp := (shortest_holds h).1
  rw [hn] at hp
  exact absurd hp (by decide)

theorem isDigit_of_mem_shortest : ∀ d ∈ x.shortest.1, d.isDigit := by
  intro d hd
  exact Nat.isDigit_of_mem_toDigits (by decide) (by decide) (mem_of_mem_dropZeros hd)

end Digits

end RuleTables.Binary64
