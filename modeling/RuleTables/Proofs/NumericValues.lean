import RuleTables.Proofs.Acceptance
import RuleTables.Proofs.InferredKinds
import RuleTables.Proofs.ShortestDecimal

namespace RuleTables

namespace Binary64

open Text (IsDigits IsSign IsExponent IsMantissa IsDecimalText)

section Layouts

variable {l : Layout} {ds : List Char} {d : Char} {point : Int} {n : Nat}

theorem isDigits_toDigits (n : Nat) : IsDigits (Nat.toDigits 10 n) :=
  ⟨List.length_pos_iff.mp Nat.length_toDigits_pos,
    fun _ hc => Nat.isDigit_of_mem_toDigits (by decide) (by decide) hc⟩

theorem isDigits_singleton (h : d.isDigit) : IsDigits [d] :=
  ⟨List.cons_ne_nil _ _, List.forall_mem_singleton.mpr h⟩

theorem isDigit_of_mem_zeros : ∀ c ∈ zeros n, c.isDigit := by
  intro c hc
  rw [List.eq_of_mem_replicate hc]
  decide

theorem isDigits_zeros_append (h : IsDigits ds) (n : Nat) : IsDigits (zeros n ++ ds) :=
  ⟨List.append_ne_nil_of_right_ne_nil _ h.1, List.forall_mem_append.mpr ⟨isDigit_of_mem_zeros, h.2⟩⟩

theorem isDigits_append_zeros (h : IsDigits ds) (n : Nat) : IsDigits (ds ++ zeros n) :=
  ⟨List.append_ne_nil_of_left_ne_nil h.1 _, List.forall_mem_append.mpr ⟨h.2, isDigit_of_mem_zeros⟩⟩

theorem isExponent_exponentText (width : Nat) (e : Int) : IsExponent (exponentText width e) := by
  refine ⟨'e', [if e < 0 then '-' else '+'], _, rfl, ?_,
    (isDigits_zeros_append (isDigits_toDigits e.natAbs) _).isRun, rfl⟩
  split
  · exact .inr (.inr rfl)
  · exact .inr (.inl rfl)

theorem write_of_le (h : IsDigits ds) (hl : l.lowest ≤ point) (hh : point ≤ l.highest) :
    ∃ whole fraction, IsDigits whole ∧ IsDigits fraction ∧
      l.write ds point = whole ++ '.' :: fraction := by
  have hz : IsDigits ['0'] := isDigits_singleton (by decide)
  unfold Layout.write
  rw [if_pos (Bool.and_eq_true_iff.mpr ⟨decide_eq_true hl, decide_eq_true hh⟩)]
  by_cases hp : point ≤ 0
  · rw [if_pos hp]
    exact ⟨['0'], _, hz, isDigits_zeros_append h (-point).toNat, rfl⟩
  · rw [if_neg hp]
    by_cases hn : ds.length ≤ point.toNat
    · refine ⟨ds ++ zeros (point.toNat - ds.length), ['0'], isDigits_append_zeros h _, hz, ?_⟩
      exact if_pos hn
    · refine ⟨ds.take point.toNat, ds.drop point.toNat, ⟨?_, ?_⟩, ⟨?_, ?_⟩, if_neg hn⟩
      · rw [ne_eq, List.take_eq_nil_iff]
        exact not_or.mpr ⟨by omega, h.1⟩
      · exact fun c hc => h.2 c (List.mem_of_mem_take hc)
      · rw [ne_eq, List.drop_eq_nil_iff]
        exact hn
      · exact fun c hc => h.2 c (List.mem_of_mem_drop hc)

theorem write_single (hp : ¬ (l.lowest ≤ point ∧ point ≤ l.highest)) :
    l.write [d] point = d :: exponentText l.exponentDigits (point - 1) := by
  unfold Layout.write
  rw [if_neg (by simpa using hp)]

theorem write_many (hp : ¬ (l.lowest ≤ point ∧ point ≤ l.highest)) (hs : ds ≠ []) :
    l.write (d :: ds) point = [d] ++ '.' :: ds ++ exponentText l.exponentDigits (point - 1) := by
  unfold Layout.write
  rw [if_neg (by simpa using hp)]
  cases ds with
  | nil => exact absurd rfl hs
  | cons c cs => rfl

end Layouts

section Displays

variable {x : Binary64}

theorem isDigits_shortest (h : x.mantissa ≠ 0) : IsDigits x.shortest.1 :=
  ⟨shortest_ne_nil h, isDigit_of_mem_shortest⟩

theorem toList_display (h : x.isFinite) : ∃ s, IsSign s ∧ x.display.toList =
    s ++ if x.mantissa = 0 then "0.0".toList else plain.write x.shortest.1 x.shortest.2 := by
  have hn : x.isNaN = false := by
    rw [isFinite, bne_iff_ne] at h
    rw [isNaN, Bool.and_eq_false_iff, beq_eq_false_iff_ne]
    exact .inl h
  refine ⟨(if x.isNegative then "-" else "").toList, ?_, ?_⟩
  · cases x.isNegative
    · exact .inl rfl
    · exact .inr (.inr rfl)
  · by_cases hm : x.mantissa = 0 <;> simp [display, hn, h, hm]

/-- The numbers whose text is one digit with an exponent. -/
def IsPointless (x : Binary64) : Prop :=
  x.mantissa ≠ 0 ∧ x.shortest.1.length = 1 ∧ ¬ (-3 ≤ x.shortest.2 ∧ x.shortest.2 ≤ 16)

theorem isDecimalText_display (h : x.isFinite) (hp : ¬ x.IsPointless) :
    IsDecimalText x.display.toList := by
  obtain ⟨s, hs, he⟩ := toList_display h
  rw [he]
  by_cases hm : x.mantissa = 0
  · rw [if_pos hm]
    have hz : IsDigits ['0'] := isDigits_singleton (by decide)
    exact ⟨s, ['0'], ['0'], [], hs, hz.isMantissa hz, .inl rfl, (List.append_nil _).symm⟩
  · rw [if_neg hm]
    have hd := isDigits_shortest hm
    by_cases hr : -3 ≤ x.shortest.2 ∧ x.shortest.2 ≤ 16
    · obtain ⟨whole, fraction, hw, hf, ht⟩ := write_of_le (l := plain) hd hr.1 hr.2
      rw [ht]
      exact ⟨s, whole, fraction, [], hs, hw.isMantissa hf, .inl rfl, (List.append_nil _).symm⟩
    · obtain ⟨d, ds, hc⟩ := List.exists_cons_of_ne_nil hd.1
      have hn : ds ≠ [] := by
        rintro rfl
        exact hp ⟨hm, by rw [hc]; rfl, hr⟩
      rw [hc] at hd ⊢
      obtain ⟨hd, hs'⟩ := List.forall_mem_cons.mp hd.2
      rw [write_many (l := plain) hr hn, ← List.append_assoc]
      exact ⟨s, [d], ds, _, hs, (isDigits_singleton hd).isMantissa ⟨hn, hs'⟩,
        .inr (isExponent_exponentText _ _), rfl⟩

theorem toList_display_of_pointless (h : x.isFinite) (hp : x.IsPointless) :
    ∃ s d e, IsSign s ∧ d.isDigit ∧ IsExponent e ∧ x.display.toList = s ++ d :: e := by
  obtain ⟨s, hs, he⟩ := toList_display h
  obtain ⟨hm, hl, hr⟩ := hp
  obtain ⟨d, hd⟩ := List.length_eq_one_iff.mp hl
  have hi : d.isDigit := isDigit_of_mem_shortest d (hd ▸ List.mem_singleton_self d)
  rw [if_neg hm, hd, write_single (l := plain) hr] at he
  exact ⟨s, d, _, hs, hi, isExponent_exponentText _ _, he⟩

theorem infer_display_of_pointless (h : x.isFinite) (hp : x.IsPointless) :
    Kind.infer x.display = .string := by
  obtain ⟨s, d, e, hs, hd, he, ht⟩ := toList_display_of_pointless h hp
  exact Kind.infer_of_scaled hs hd he ht

theorem infer_display (h : x.isFinite) (hp : ¬ x.IsPointless) : Kind.infer x.display = .double :=
  Kind.infer_of_decimal (isDecimalText_display h hp)

theorem allBlank_display (h : x.isFinite) : Text.allBlank x.display = false := by
  by_cases hp : x.IsPointless
  · obtain ⟨s, d, e, -, hd, -, ht⟩ := toList_display_of_pointless h hp
    apply Text.allBlank_of_mem (c := d)
    · rw [ht]
      exact List.mem_append_right _ List.mem_cons_self
    · exact Text.isBlank_of_isDigit (Text.isDigit_of_ascii hd)
  · exact Kind.allBlank_of_infer (infer_display h hp ▸ nofun)

end Displays

end Binary64

section Integers

open Text (IsSign IsIntegerText digitLimit)

theorem toList_toString (n : Int) :
    ∃ s, IsSign s ∧ (toString n).toList = s ++ Nat.toDigits 10 n.natAbs := by
  cases n with
  | ofNat n =>
    exact ⟨[], .inl rfl, Nat.toList_repr⟩
  | negSucc n =>
    refine ⟨['-'], .inr (.inr rfl), ?_⟩
    change ("-" ++ Nat.repr (n + 1)).toList = _
    rw [String.toList_append, Nat.toList_repr]
    rfl

theorem infer_toString {n : Int} (h : n.natAbs < 10 ^ digitLimit) :
    Kind.infer (toString n) = .integer := by
  obtain ⟨s, hs, he⟩ := toList_toString n
  have hd := Binary64.isDigits_toDigits n.natAbs
  apply Kind.infer_of_integer
  · exact ⟨s, _, hs, hd.isRun, he⟩
  · rw [he, List.filter_append, hs.filter_isDigit, List.nil_append]
    exact (List.length_filter_le _ _).trans
      ((Nat.length_toDigits_le_iff (by decide) (by decide)).mpr h)

end Integers

namespace Condition

open Text (allBlank)

/-- The members of a condition whose kind is left open. -/
structure IsUntyped (ms : Json.Members) (p : String) (op : Operator) (v : Json) : Prop where
  type : Assoc.find? "type" ms = some (.text "condition")
  parameter : Assoc.find? "parameter" ms = some (.text p)
  operator : ∃ o, Assoc.find? "operator" ms = some o ∧ operatorOf o = .ok op
  value : Assoc.find? "value" ms = some v
  kind : textField? "dataType" ms = .ok none
  grouped : Assoc.find? "grouped" ms = none ∨ ∃ b, Assoc.find? "grouped" ms = some (.bool b)

variable {ms : Json.Members} {p text : String} {op : Operator} {v : Json}

theorem IsUntyped.ofTree (h : IsUntyped ms p op v) (ht : valueOf v = .ok text) :
    ∃ grouped, ofTree ms = .ok (.of p (some op) text none grouped) := by
  obtain ⟨o, ho, hop⟩ := h.operator
  rw [Condition.ofTree, h.kind, h.parameter, ho, h.value, Option.getD_some]
  simp only [hop, ht]
  rcases h.grouped with hg | ⟨b, hg⟩
  · refine ⟨true, ?_⟩
    rw [hg]
    rfl
  · refine ⟨b, ?_⟩
    rw [hg]
    rfl

theorem IsUntyped.read (h : IsUntyped ms p op v) (strict : Bool) (ht : valueOf v = .ok text) :
    ∃ c, Expr.read strict (.object ms) = .ok (.condition c) ∧ c.parameter = p ∧
      c.operator = some op ∧ c.value = text ∧ c.kind = Kind.infer text := by
  obtain ⟨grouped, hg⟩ := h.ofTree ht
  refine ⟨.of p (some op) text none grouped, ?_, rfl, rfl, rfl, ?_⟩
  · rw [Expr.read, Expr.ofTree, h.type, hg]
    rfl
  · rw [of, Option.getD_none]

theorem supports_number_iff {k : Kind} (hk : k ∈ [Kind.integer, .double, .string])
    (ho : op.comparesNumbers) : op.supports k ↔ (k = .string → op.category ≠ .numeric) := by
  simp only [List.mem_cons, List.not_mem_nil, or_false] at hk
  rcases hk with rfl | rfl | rfl
  · exact iff_of_true ho nofun
  · exact iff_of_true ho nofun
  · rw [Operator.supports, Operator.comparesText, decide_eq_true_eq]
    exact ⟨fun h _ => h, fun h => h rfl⟩

theorem isValid_number_iff {c : Condition} (hk : c.kind ∈ [Kind.integer, .double, .string])
    (ho : c.operator = some op) (hn : op.comparesNumbers) (hv : allBlank c.value = false) :
    (Expr.condition c).validate.isValid ↔
      allBlank c.parameter = false ∧ (c.kind = .string → op.category ≠ .numeric) := by
  rw [Expr.isValid_condition_iff, ← supports_number_iff hk hn]
  constructor
  · rintro ⟨hp, op', ho', hs, -⟩
    obtain rfl := Option.some.inj (ho.symm.trans ho')
    exact ⟨hp, hs⟩
  · exact fun ⟨hp, hs⟩ => ⟨hp, op, ho, hs, fun _ => hv⟩

end Condition

namespace Expr

open Condition Binary64
open Text (allBlank digitLimit)

/-- A condition on an integer has the kind of integers, and one on a real that of doubles, where
every operator for numbers is accepted. A real written as one digit with an exponent is the
exception: it is taken for text, and the operators for numbers alone are refused. -/
theorem read_number {ms : Json.Members} {p : String} {op : Operator} {v : Json} (strict : Bool)
    (h : IsUntyped ms p op v) :
    (∀ n : Int, v = .int n → n.natAbs < 10 ^ digitLimit → ∃ c,
      read strict (.object ms) = .ok (condition c) ∧ c.parameter = p ∧ c.operator = some op ∧
      c.value = toString n ∧ c.kind = .integer ∧
      (op.comparesNumbers → ((condition c).validate.isValid ↔ allBlank p = false))) ∧
    (∀ x : Binary64, v = .real x → x.isFinite → ∃ c,
      read strict (.object ms) = .ok (condition c) ∧ c.parameter = p ∧ c.operator = some op ∧
      c.value = x.display ∧
      (¬ x.IsPointless → c.kind = .double ∧
        (op.comparesNumbers → ((condition c).validate.isValid ↔ allBlank p = false))) ∧
      (x.IsPointless → c.kind = .string ∧ (op.comparesNumbers →
        ((condition c).validate.isValid ↔ allBlank p = false ∧ op.category ≠ .numeric)))) := by
  constructor
  · rintro n rfl hn
    obtain ⟨c, hc, hp, ho, ht, hk⟩ := h.read strict rfl
    have hb : allBlank c.value = false :=
      ht ▸ Kind.allBlank_of_infer (infer_toString hn ▸ nofun)
    rw [infer_toString hn] at hk
    refine ⟨c, hc, hp, ho, ht, hk, fun hs => ?_⟩
    rw [isValid_number_iff (by simp [hk]) ho hs hb, hp, hk]
    simp
  · rintro x rfl hx
    obtain ⟨c, hc, hp, ho, ht, hk⟩ := h.read strict rfl
    have hb : allBlank c.value = false := ht ▸ allBlank_display hx
    refine ⟨c, hc, hp, ho, ht, fun hx' => ?_, fun hx' => ?_⟩
    · rw [infer_display hx hx'] at hk
      refine ⟨hk, fun hs => ?_⟩
      rw [isValid_number_iff (by simp [hk]) ho hs hb, hp, hk]
      simp
    · rw [infer_display_of_pointless hx hx'] at hk
      refine ⟨hk, fun hs => ?_⟩
      rw [isValid_number_iff (by simp [hk]) ho hs hb, hp, hk]
      simp

def amountAbove (v : Json) : Json.Members :=
  [("type", .text "condition"), ("parameter", .text "amount"), ("operator", .text ">"),
    ("value", v)]

theorem amountAbove_isUntyped (v : Json) : IsUntyped (amountAbove v) "amount" .greaterThan v :=
  ⟨rfl, rfl, ⟨.text ">", rfl, rfl⟩, rfl, rfl, .inl rfl⟩

def oneAndAHalf : Binary64 := ⟨0x3ff8000000000000⟩

theorem amountAboveFive_valid : IsUntyped (amountAbove (.int 5)) "amount" .greaterThan (.int 5) ∧
    (5 : Int).natAbs < 10 ^ digitLimit ∧
    (∃ c, read true (.object (amountAbove (.int 5))) = .ok (condition c) ∧ c.kind = .integer ∧
      (condition c).validate.isValid) ∧
    oneAndAHalf.isFinite ∧ ¬ oneAndAHalf.IsPointless ∧
    ∃ c, read true (.object (amountAbove (.real oneAndAHalf))) = .ok (condition c) ∧
      c.value = "1.5" ∧ c.kind = .double ∧ (condition c).validate.isValid := by
  have hu := amountAbove_isUntyped (.int 5)
  have hl : (5 : Int).natAbs < 10 ^ digitLimit := calc
    5 < 10 ^ 1 := by decide
    _ ≤ 10 ^ digitLimit := Nat.pow_le_pow_right (by decide) (by decide)
  obtain ⟨c, hc, -, -, -, hk, hv⟩ := (read_number true hu).1 5 rfl hl
  have hf : oneAndAHalf.isFinite := by decide
  have hp : ¬ oneAndAHalf.IsPointless := fun h => absurd h.2.1 (by decide +kernel)
  have hd : oneAndAHalf.display = "1.5" := by decide +kernel
  obtain ⟨d, hr, -, -, ht, hreal, -⟩ :=
    (read_number true (amountAbove_isUntyped (.real oneAndAHalf))).2 oneAndAHalf rfl hf
  obtain ⟨hkd, hvd⟩ := hreal hp
  exact ⟨hu, hl, ⟨c, hc, hk, (hv rfl).mpr (by decide)⟩, hf, hp, d, hr, ht.trans hd, hkd,
    (hvd rfl).mpr (by decide)⟩

/-- Ten to the sixteenth, which is written `1e+16`. -/
def tenQuadrillion : Binary64 := ⟨0x4341c37937e08000⟩

/-- The number is finite, but taken for text, and is not to be compared with. -/
theorem amountAboveTenQuadrillion_refused : tenQuadrillion.isFinite ∧ ∃ c,
    read false (.object (amountAbove (.real tenQuadrillion))) = .ok (condition c) ∧
    c.operator = some .greaterThan ∧ c.kind = .string ∧ ¬ (condition c).validate.isValid := by
  have hf : tenQuadrillion.isFinite := by decide
  have hp : tenQuadrillion.IsPointless := by
    refine ⟨?_, ?_, ?_⟩
    · decide
    · decide +kernel
    · decide +kernel
  obtain ⟨c, hc, -, ho, ht, hk⟩ := (amountAbove_isUntyped (.real tenQuadrillion)).read false rfl
  rw [infer_display_of_pointless hf hp] at hk
  have hb : allBlank c.value = false := ht ▸ allBlank_display hf
  refine ⟨hf, c, hc, ho, hk, ?_⟩
  rw [isValid_number_iff (by simp [hk]) ho rfl hb, hk]
  simp [Operator.category]

end Expr

end RuleTables
