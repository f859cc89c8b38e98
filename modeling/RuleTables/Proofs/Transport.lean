import RuleTables.Proofs.RecordRoundTrip

namespace RuleTables

namespace Text.Utf8

section Reading

variable {i n : Nat} {b : Begun} {o : UInt8} {os : List UInt8} {c : Char} {cs : List Char}

theorem toNat_ofNat (h : n < 0x100) : (UInt8.ofNat n).toNat = n :=
  UInt8.toNat_ofNat_of_lt' h

theorem continuation_le (h : n < 0x40) : 0x80 + n ≤ 0xbf := by
  omega

theorem decodeFrom_whole (h : start o = .whole c) (hs : decodeFrom (i + 1) none os = .ok cs) :
    decodeFrom i none (o :: os) = .ok (c :: cs) := by
  rw [decodeFrom, h, hs]
  rfl

theorem decodeFrom_begun (h : start o = .begun b) :
    decodeFrom i none (o :: os) = decodeFrom (i + 1) (some b) os := by
  rw [decodeFrom, h]

theorem decodeFrom_continued (hn : n < 0x40) (hl : b.low ≤ 0x80 + n) (hh : 0x80 + n ≤ b.high)
    (hm : 1 < b.missing) : decodeFrom i (some b) (.ofNat (0x80 + n) :: os) = decodeFrom (i + 1)
      (some ⟨b.octet, b.taken + 1, b.missing - 1, b.value * 0x40 + n, 0x80, 0xbf⟩) os := by
  rw [decodeFrom, toNat_ofNat (by omega), if_pos ⟨hl, hh⟩, if_neg (by omega),
    Nat.add_sub_cancel_left]

theorem decodeFrom_last (hn : n < 0x40) (hl : b.low ≤ 0x80 + n) (hh : 0x80 + n ≤ b.high)
    (hm : b.missing ≤ 1) (hc : b.value * 0x40 + n = c.toNat)
    (hs : decodeFrom (i + 1) none os = .ok cs) :
    decodeFrom i (some b) (.ofNat (0x80 + n) :: os) = .ok (c :: cs) := by
  rw [decodeFrom, toNat_ofNat (by omega), if_pos ⟨hl, hh⟩, if_pos hm, hs, Nat.add_sub_cancel_left,
    hc, Char.ofNat_toNat]
  rfl

theorem start_one (h : n < 0x80) : start (.ofNat n) = .whole (.ofNat n) := by
  rw [start, toNat_ofNat (by omega), if_pos h]

theorem start_two (hl : 2 ≤ n) (hh : n < 0x20) :
    start (.ofNat (0xc0 + n)) = .begun ⟨.ofNat (0xc0 + n), 1, 1, n, 0x80, 0xbf⟩ := by
  rw [start, toNat_ofNat (by omega), if_neg (by omega), if_neg (by omega), if_pos (by omega),
    Nat.add_sub_cancel_left]

theorem start_three (h : n < 0x10) : start (.ofNat (0xe0 + n)) =
    .begun ⟨.ofNat (0xe0 + n), 1, 2, n, if n = 0 then 0xa0 else 0x80,
      if n = 13 then 0x9f else 0xbf⟩ := by
  have hz : 0xe0 + n = 0xe0 ↔ n = 0 := by omega
  have hd : 0xe0 + n = 0xed ↔ n = 13 := by omega
  rw [start, toNat_ofNat (by omega), if_neg (by omega), if_neg (by omega), if_neg (by omega),
    if_pos (by omega), Nat.add_sub_cancel_left]
  simp only [hz, hd]

theorem start_four (h : n < 5) : start (.ofNat (0xf0 + n)) =
    .begun ⟨.ofNat (0xf0 + n), 1, 3, n, if n = 0 then 0x90 else 0x80,
      if n = 4 then 0x8f else 0xbf⟩ := by
  have hz : 0xf0 + n = 0xf0 ↔ n = 0 := by omega
  have hf : 0xf0 + n = 0xf4 ↔ n = 4 := by omega
  rw [start, toNat_ofNat (by omega), if_neg (by omega), if_neg (by omega), if_neg (by omega),
    if_neg (by omega), if_pos (by omega), Nat.add_sub_cancel_left]
  simp only [hz, hf]

theorem decodeFrom_two (hl : 0x80 ≤ c.toNat) (hh : c.toNat < 0x800)
    (hs : ∀ i, decodeFrom i none os = .ok cs) :
    decodeFrom i none (.ofNat (0xc0 + c.toNat / 0x40) :: .ofNat (0x80 + c.toNat % 0x40) :: os) =
      .ok (c :: cs) := by
  have hc : c.toNat / 0x40 * 0x40 + c.toNat % 0x40 = c.toNat := Nat.div_add_mod' _ _
  have hm : c.toNat % 0x40 < 0x40 := Nat.mod_lt _ (by decide)
  rw [decodeFrom_begun (start_two (by omega) (by omega))]
  exact decodeFrom_last hm (Nat.le_add_right _ _) (continuation_le hm) (Nat.le_refl 1) hc (hs _)

theorem decodeFrom_three (hl : 0x800 ≤ c.toNat) (hh : c.toNat < 0x10000)
    (hv : c.toNat < 0xd800 ∨ 0xdfff < c.toNat) (hs : ∀ i, decodeFrom i none os = .ok cs) :
    decodeFrom i none (.ofNat (0xe0 + c.toNat / 0x1000) :: .ofNat (0x80 + c.toNat / 0x40 % 0x40) ::
      .ofNat (0x80 + c.toNat % 0x40) :: os) = .ok (c :: cs) := by
  have hc : (c.toNat / 0x1000 * 0x40 + c.toNat / 0x40 % 0x40) * 0x40 + c.toNat % 0x40 =
      c.toNat := by omega
  have hlow : (if c.toNat / 0x1000 = 0 then 0xa0 else 0x80) ≤ 0x80 + c.toNat / 0x40 % 0x40 := by
    split <;> omega
  have hhigh : 0x80 + c.toNat / 0x40 % 0x40 ≤ if c.toNat / 0x1000 = 13 then 0x9f else 0xbf := by
    split <;> omega
  have hm : c.toNat % 0x40 < 0x40 := Nat.mod_lt _ (by decide)
  rw [decodeFrom_begun (start_three (by omega)),
    decodeFrom_continued (Nat.mod_lt _ (by decide)) hlow hhigh (Nat.lt_succ_self 1)]
  exact decodeFrom_last hm (Nat.le_add_right _ _) (continuation_le hm) (Nat.le_refl 1) hc (hs _)

theorem decodeFrom_four (hl : 0x10000 ≤ c.toNat) (hh : c.toNat < 0x110000)
    (hs : ∀ i, decodeFrom i none os = .ok cs) :
    decodeFrom i none (.ofNat (0xf0 + c.toNat / 0x40000) ::
      .ofNat (0x80 + c.toNat / 0x1000 % 0x40) :: .ofNat (0x80 + c.toNat / 0x40 % 0x40) ::
      .ofNat (0x80 + c.toNat % 0x40) :: os) = .ok (c :: cs) := by
  have hc : ((c.toNat / 0x40000 * 0x40 + c.toNat / 0x1000 % 0x40) * 0x40 +
      c.toNat / 0x40 % 0x40) * 0x40 + c.toNat % 0x40 = c.toNat := by omega
  have hlow : (if c.toNat / 0x40000 = 0 then 0x90 else 0x80) ≤ 0x80 + c.toNat / 0x1000 % 0x40 := by
    split <;> omega
  have hhigh : 0x80 + c.toNat / 0x1000 % 0x40 ≤ if c.toNat / 0x40000 = 4 then 0x8f else 0xbf := by
    split <;> omega
  have hn : c.toNat / 0x40 % 0x40 < 0x40 := Nat.mod_lt _ (by decide)
  have hm : c.toNat % 0x40 < 0x40 := Nat.mod_lt _ (by decide)
  rw [decodeFrom_begun (start_four (by omega)),
    decodeFrom_continued (Nat.mod_lt _ (by decide)) hlow hhigh (by decide : 1 < 3),
    decodeFrom_continued hn (Nat.le_add_right _ _) (continuation_le hn) (Nat.lt_succ_self 1)]
  exact decodeFrom_last hm (Nat.le_add_right _ _) (continuation_le hm) (Nat.le_refl 1) hc (hs _)

theorem decodeFrom_encodeChar (c : Char) (hs : ∀ i, decodeFrom i none os = .ok cs) (i : Nat) :
    decodeFrom i none (encodeChar c ++ os) = .ok (c :: cs) := by
  have hv : c.toNat < 0xd800 ∨ 0xdfff < c.toNat ∧ c.toNat < 0x110000 := c.valid
  rw [encodeChar]
  split_ifs with h1 h2 h3
  · have hw := start_one h1
    rw [Char.ofNat_toNat] at hw
    exact decodeFrom_whole hw (hs _)
  · exact decodeFrom_two (by omega) h2 hs
  · exact decodeFrom_three (by omega) h3 (by omega) hs
  · exact decodeFrom_four (by omega) (by omega) hs

theorem encode_ne_nil (h : cs ≠ []) : encode cs ≠ [] := by
  obtain ⟨c, cs, rfl⟩ := List.exists_cons_of_ne_nil h
  refine List.append_ne_nil_of_left_ne_nil ?_ _
  rw [encodeChar]
  split_ifs <;> exact List.cons_ne_nil _ _

theorem decodeFrom_encode (cs : List Char) (i : Nat) : decodeFrom i none (encode cs) = .ok cs := by
  induction cs generalizing i with
  | nil => rfl
  | cons c cs ih => exact decodeFrom_encodeChar c ih i

theorem decode_encode (cs : List Char) : decode (encode cs) = .ok cs :=
  decodeFrom_encode cs 0

end Reading

end Text.Utf8

namespace Text.Base64

theorem value?_letter : ∀ n < 64, value? (letter n) = some n := by
  decide

theorem letter_ne_pad : ∀ n < 64, letter n ≠ '=' := by
  decide

section Reading

variable {n bits : Nat} {a b c : UInt8} {cs : List Char} {os : List UInt8}

theorem decodeFrom_first (h : n < 64) (given : Nat) :
    decodeFrom ⟨0, bits, 0, false, given⟩ (letter n :: cs) =
      decodeFrom ⟨1, n, 0, false, given⟩ cs := by
  rw [decodeFrom, if_neg (letter_ne_pad n h), value?_letter n h]
  rfl

theorem decodeFrom_second (h : n < 64) (ho : bits * 4 + n / 16 = a.toNat)
    (hs : ∀ given, decodeFrom ⟨2, n % 16, 0, false, given⟩ cs = .ok os) (given : Nat) :
    decodeFrom ⟨1, bits, 0, false, given⟩ (letter n :: cs) = .ok (a :: os) := by
  rw [decodeFrom, if_neg (letter_ne_pad n h), value?_letter n h]
  simp only [Bool.false_eq_true, if_false, ho, hs, UInt8.ofNat_toNat]
  rfl

theorem decodeFrom_third (h : n < 64) (ho : bits * 16 + n / 4 = b.toNat)
    (hs : ∀ given, decodeFrom ⟨3, n % 4, 0, false, given⟩ cs = .ok os) (given : Nat) :
    decodeFrom ⟨2, bits, 0, false, given⟩ (letter n :: cs) = .ok (b :: os) := by
  rw [decodeFrom, if_neg (letter_ne_pad n h), value?_letter n h]
  simp only [Bool.false_eq_true, if_false, ho, hs, UInt8.ofNat_toNat]
  rfl

theorem decodeFrom_fourth (h : n < 64) (ho : bits * 64 + n = c.toNat)
    (hs : ∀ given, decodeFrom ⟨0, 0, 0, false, given⟩ cs = .ok os) (given : Nat) :
    decodeFrom ⟨3, bits, 0, false, given⟩ (letter n :: cs) = .ok (c :: os) := by
  rw [decodeFrom, if_neg (letter_ne_pad n h), value?_letter n h]
  simp only [Bool.false_eq_true, if_false, ho, hs, UInt8.ofNat_toNat]
  rfl

theorem decodeFrom_encode (os : List UInt8) (given : Nat) :
    decodeFrom ⟨0, 0, 0, false, given⟩ (encode os) = .ok os := by
  fun_induction encode os generalizing given with
  | case1 => rfl
  | case2 a =>
    have ha := a.toNat_lt
    rw [decodeFrom_first (by omega)]
    refine decodeFrom_second (by omega) (by omega) (fun _ => ?_) given
    simp [decodeFrom]
  | case3 a b =>
    have ha := a.toNat_lt
    have hb := b.toNat_lt
    rw [decodeFrom_first (by omega)]
    refine decodeFrom_second (by omega) (by omega) (decodeFrom_third (by omega) (by omega) ?_) given
    exact fun _ => rfl
  | case4 a b c os ih =>
    have ha := a.toNat_lt
    have hb := b.toNat_lt
    have hc := c.toNat_lt
    rw [decodeFrom_first (by omega)]
    exact decodeFrom_second (by omega) (by omega) (decodeFrom_third (by omega) (by omega)
      (decodeFrom_fourth (by omega) (by omega) ih)) given

theorem exists_encode_eq_cons (h : os ≠ []) : ∃ n < 64, ∃ cs, encode os = letter n :: cs := by
  obtain ⟨a, os, rfl⟩ := List.exists_cons_of_ne_nil h
  have ha : a.toNat / 4 < 64 := by
    have := a.toNat_lt
    omega
  match os with
  | [] | [_] | _ :: _ :: _ => exact ⟨a.toNat / 4, ha, _, rfl⟩

theorem letter_plain : ∀ n < 64, isBlank (letter n) = false ∧ (letter n).toNat < 0x80 := by
  decide

theorem encode_plain (os : List UInt8) :
    ∀ x ∈ encode os, isBlank x = false ∧ x.toNat < 0x80 := by
  have hp : isBlank '=' = false ∧ '='.toNat < 0x80 := by decide
  fun_induction encode os with
  | case1 => exact nofun
  | case2 a =>
    have ha := a.toNat_lt
    simp only [List.forall_mem_cons]
    exact ⟨letter_plain _ (by omega), letter_plain _ (by omega), hp, hp, nofun⟩
  | case3 a b =>
    have ha := a.toNat_lt
    have hb := b.toNat_lt
    simp only [List.forall_mem_cons]
    exact ⟨letter_plain _ (by omega), letter_plain _ (by omega), letter_plain _ (by omega), hp,
      nofun⟩
  | case4 a b c os ih =>
    have ha := a.toNat_lt
    have hb := b.toNat_lt
    have hc := c.toNat_lt
    simp only [List.forall_mem_cons]
    exact ⟨letter_plain _ (by omega), letter_plain _ (by omega), letter_plain _ (by omega),
      letter_plain _ (by omega), ih⟩

theorem decode_encode (os : List UInt8) : decode (encode os) = .ok os := by
  cases os with
  | nil => rfl
  | cons o os =>
    obtain ⟨n, hn, cs, hc⟩ := exists_encode_eq_cons (List.cons_ne_nil o os)
    have hs := decodeFrom_encode (o :: os) 0
    rw [hc] at hs ⊢
    rw [decode]
    · exact hs
    · exact fun _ h => letter_ne_pad n hn (List.cons.inj h).1

end Reading

end Text.Base64

namespace Text

def carried (s : String) : String :=
  String.ofList (Base64.encode (Utf8.encode s.toList))

theorem carried_not_blank {s : String} (h : s ≠ "") : allBlank (carried s) = false := by
  have hs : Utf8.encode s.toList ≠ [] :=
    Utf8.encode_ne_nil fun hl => h (String.toList_eq_nil_iff.mp hl)
  obtain ⟨n, hn, cs, hc⟩ := Base64.exists_encode_eq_cons hs
  rw [allBlank, carried, String.toList_ofList, hc, List.all_cons, (Base64.letter_plain n hn).1]
  rfl

end Text

namespace Expr

theorem base64Records_carried (s : String) : base64Records (Text.carried s) = .ok s := by
  have hp := Text.Base64.encode_plain (Text.Utf8.encode s.toList)
  have ha : (Text.Base64.encode (Text.Utf8.encode s.toList)).any (fun c => 0x80 ≤ c.toNat) =
      false := by
    refine List.any_eq_false.mpr fun c hc => ?_
    simpa using (hp c hc).2
  rw [base64Records, Text.carried, String.toList_ofList,
    Text.trimChars_eq_self fun c hc => (hp c hc).1]
  simp [ha, Text.Base64.decode_encode, Text.Utf8.decode_encode, Except.mapError, bind, Except.bind,
    pure, Except.pure]

theorem recordText_not_blank (e : Expr) : Text.allBlank e.recordText = false := by
  refine FlatRecord.not_allBlank_join ?_
  unfold records
  split
  · exact List.cons_ne_nil _ _
  · split
    · exact List.cons_ne_nil _ _
    · next h => exact h

theorem decodeBase64_base64Text (e : Expr) :
    decodeBase64 e.base64Text = .ok (decodeText e.recordText) := by
  have hs : e.base64Text = Text.carried e.recordText := rfl
  have hb := Text.carried_not_blank (Text.ne_empty_of_not_allBlank e.recordText_not_blank)
  rw [hs, decodeBase64, hb, base64Records_carried]
  rfl

/-- An expression that is sent as Base64 arrives as what is read from its records, whatever
characters they hold. -/
theorem decodeBase64_encodeBase64 {e : Expr} (h : e.isComplete) : ∃ s t,
    e.encodeBase64 = .ok s ∧ e.encodeText = .ok t ∧ decodeBase64 s = .ok (decodeText t) := by
  refine ⟨e.base64Text, e.recordText, ?_, encodeText_eq h, decodeBase64_base64Text e⟩
  rw [encodeBase64, obstacle?_eq_none h]
  rfl

def townOrClef : Expr :=
  composite [⟨none, group (condition (.of "città" (some .equals) "Kraków, €" none false))⟩,
    ⟨some .or, condition (.of "clef" (some .contains) "𝄞" none true)⟩]

theorem townOrClef_arrives : townOrClef.isComplete ∧ ∃ s, townOrClef.encodeBase64 = .ok s ∧
    decodeBase64 s = .ok (composite
      [⟨none, condition (.of "città" (some .equals) "Kraków, €" none true)⟩,
        ⟨some .or, condition (.of "clef" (some .contains) "𝄞" none true)⟩]) := by
  have hc : townOrClef.isComplete := by decide
  have hs : townOrClef.leaves.all (·.isStorable) := by decide
  obtain ⟨s, t, he, ht, hd⟩ := decodeBase64_encodeBase64 hc
  cases ht.symm.trans (encodeText_eq hc)
  rw [decodeText_recordText hc hs] at hd
  exact ⟨hc, s, he, hd⟩

end Expr

end RuleTables
