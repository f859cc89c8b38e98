import Mathlib.Data.List.TakeWhile
import RuleTables.Expr.Tree
import RuleTables.Proofs.Outcome

namespace RuleTables

namespace Json

/-- Digits that are all of an integer, and more of them than can be converted. -/
structure IsOverlong (ds after : List Char) : Prop where
  long : 4300 < ds.length
  digits : ∀ c ∈ ds, isNumeral c
  ends : ∀ c ∈ after.head?, isNumeral c = false
  fraction : readFraction after = none
  exponent : readExponent after = none

/-- An integer of so many digits stands at the beginning, and they are too many. -/
def BeginsOverlong (digits : Nat) (cs : List Char) : Prop :=
  ∃ ds after, (cs = ds ++ after ∨ cs = '-' :: (ds ++ after)) ∧ ds.length = digits ∧
    IsOverlong ds after

/-- What is left behind a value is the end of the text, and reading stops for an overlong integer
only where one begins. -/
structure Keeps {α : Type} (cs : List Char) (x : Except Stop (α × List Char)) : Prop where
  rest : ∀ a r, x = .ok (a, r) → r <:+ cs
  stop : ∀ t d, x = .error t → t.cause = .longInteger d → t.rest <:+ cs ∧ BeginsOverlong d t.rest

section Readers

variable {α β : Type} {cs ds : List Char} {x : Except Stop (α × List Char)}

theorem keeps_ok {a : α} {r : List Char} (h : r <:+ cs) : Keeps cs (.ok (a, r) : Read α) where
  rest _ _ he := by cases he; exact h
  stop := nofun

theorem keeps_error {t : Stop} (h : ∀ d, t.cause ≠ .longInteger d) :
    Keeps cs (.error t : Read α) where
  rest := nofun
  stop _ d he hd := by cases he; exact absurd hd (h d)

theorem Keeps.error {t : Stop} (h : Keeps cs (.error t : Read α)) : Keeps cs (.error t : Read β) where
  rest := nofun
  stop _ d he hd := by cases he; exact h.stop t d rfl hd

theorem Keeps.mono (h : Keeps cs x) (hs : cs <:+ ds) : Keeps ds x where
  rest a r he := (h.rest a r he).trans hs
  stop t d he hd := (h.stop t d he hd).imp_left (·.trans hs)

theorem Keeps.bind {f : α × List Char → Except Stop (β × List Char)} (h : Keeps cs x)
    (hf : ∀ a r, r <:+ cs → Keeps cs (f (a, r))) : Keeps cs (x >>= f) := by
  cases x with
  | error t => exact h.error
  | ok v => exact hf v.1 v.2 (h.rest v.1 v.2 rfl)

theorem Keeps.map (h : Keeps cs x) (f : α → β) : Keeps cs (x.map fun v => (f v.1, v.2)) := by
  cases x with
  | error t => exact h.error
  | ok v => exact keeps_ok (h.rest v.1 v.2 rfl)

theorem skip_suffix (cs : List Char) : skip cs <:+ cs :=
  List.dropWhile_suffix isSpace

theorem keeps_readCodes (opening cs : List Char) : Keeps cs (readCodes opening cs) := by
  fun_induction readCodes opening cs with
  | case1 => exact keeps_error nofun
  | case2 cs => exact keeps_ok (List.suffix_cons _ _)
  | case3 => exact keeps_error nofun
  | case4 a b c d e cs n h ih => exact (ih.map _).mono (List.suffix_append ['\\', 'u', a, b, c, d] _)
  | case5 a b c d e cs h => exact keeps_error nofun
  | case6 => exact keeps_error nofun
  | case7 c cs _ _ n h ih => exact (ih.map _).mono (List.suffix_append ['\\', c] _)
  | case8 => exact keeps_error nofun
  | case9 => exact keeps_error nofun
  | case10 c cs _ _ _ _ _ h ih => exact (ih.map _).mono (List.suffix_cons _ _)

theorem keeps_readText (cs : List Char) : Keeps cs (readText cs) :=
  (keeps_readCodes _ cs).map fun codes => String.ofList (joinHalves codes)

section Numbers

variable {body whole fraction after : List Char}

theorem readWhole_parts (h : readWhole body = some (whole, after)) :
    body = whole ++ after ∧ (∀ c ∈ whole, isNumeral c) ∧
      (1 < whole.length → ∀ c ∈ after.head?, isNumeral c = false) := by
  -- only a zero at the front may have digits behind it that are not read with it
  unfold readWhole at h
  split at h
  · cases h
    exact ⟨rfl, List.forall_mem_singleton.mpr rfl, fun hl => absurd hl (Nat.lt_irrefl 1)⟩
  · dsimp only at h
    split at h
    · cases h
    · cases h
      refine ⟨List.takeWhile_append_dropWhile.symm, fun c hc => List.mem_takeWhile_imp hc,
        fun _ c hc => ?_⟩
      have hn := List.head?_dropWhile_not isNumeral body
      rw [Option.mem_def.mp hc] at hn
      exact hn

theorem readFraction_parts (h : (readFraction body).getD ([], body) = (fraction, after)) :
    after <:+ body ∧ (fraction = [] → readFraction body = none ∧ after = body) := by
  cases hf : readFraction body with
  | none =>
    rw [hf] at h
    cases h
    exact ⟨List.suffix_rfl, fun _ => ⟨rfl, rfl⟩⟩
  | some f =>
    rw [hf] at h
    obtain rfl : f = (fraction, after) := h
    unfold readFraction at hf
    split at hf
    · next cs =>
      dsimp only at hf
      split at hf
      · cases hf
      · next hn =>
        cases hf
        exact ⟨(List.dropWhile_suffix _).trans (List.suffix_cons _ cs),
          fun hd => absurd (List.isEmpty_iff.mpr hd) hn⟩
    · cases hf

theorem readSign_suffix (cs : List Char) : (readSign cs).2 <:+ cs := by
  unfold readSign
  split
  · exact List.suffix_cons _ _
  · exact List.suffix_cons _ _
  · exact List.suffix_rfl

theorem readExponent_suffix (body : List Char) :
    ((readExponent body).getD (0, body)).2 <:+ body := by
  cases hx : readExponent body with
  | none => exact List.suffix_rfl
  | some x =>
    unfold readExponent at hx
    split at hx
    · next c cs =>
      split at hx
      · dsimp only at hx
        split at hx
        · cases hx
        · cases hx
          exact ((List.dropWhile_suffix _).trans (readSign_suffix cs)).trans (List.suffix_cons _ cs)
      · cases hx
    · cases hx

def readUnsigned (cs : List Char) (negative : Bool) (body : List Char) : Read Json :=
  match readWhole body with
  | none => .error ⟨.expectedValue, cs⟩
  | some (whole, afterWhole) =>
    let (fraction, afterFraction) := (readFraction afterWhole).getD ([], afterWhole)
    match fraction.isEmpty, readExponent afterFraction with
    | true, none =>
      if 4300 < whole.length then .error ⟨.longInteger whole.length, cs⟩
      else
        let n : Int := numeralValue whole
        .ok (int (if negative then -n else n), afterFraction)
    | _, exponent =>
      let (e, rest) := exponent.getD (0, afterFraction)
      .ok (real (.ofDecimal negative (numeralValue (whole ++ fraction)) (e - fraction.length)), rest)

theorem exists_readUnsigned (cs : List Char) : ∃ negative body,
    (cs = body ∨ cs = '-' :: body) ∧ readNumber cs = readUnsigned cs negative body := by
  unfold readNumber
  split
  next h =>
    split at h
    · cases h
      exact ⟨_, _, .inr rfl, rfl⟩
    · cases h
      exact ⟨_, _, .inl rfl, rfl⟩

theorem keeps_readNumber (cs : List Char) : Keeps cs (readNumber cs) := by
  obtain ⟨negative, body, hs, hr⟩ := exists_readUnsigned cs
  have hbody : body <:+ cs := by
    rcases hs with rfl | rfl
    · exact List.suffix_rfl
    · exact List.suffix_cons _ _
  rw [hr]
  unfold readUnsigned
  split
  · exact keeps_error nofun
  · next whole afterWhole hw =>
    obtain ⟨hb, hd, hends⟩ := readWhole_parts hw
    have hafter : afterWhole <:+ cs := (hb ▸ List.suffix_append whole afterWhole).trans hbody
    generalize hf : (readFraction afterWhole).getD ([], afterWhole) = f
    obtain ⟨fraction, afterFraction⟩ := f
    obtain ⟨hr, hnone⟩ := readFraction_parts hf
    dsimp only
    split
    · next he hx =>
      obtain ⟨hn, rfl⟩ := hnone (List.isEmpty_iff.mp he)
      split
      · next hl =>
        rw [hb] at hs
        refine ⟨nofun, fun t d ht hc => ?_⟩
        cases ht
        cases hc
        exact ⟨List.suffix_rfl, whole, _, hs, rfl, hl, hd, hends (by omega), hn, hx⟩
      · exact keeps_ok hafter
    · exact keeps_ok ((readExponent_suffix afterFraction).trans (hr.trans hafter))

end Numbers

section Values

/-- None of the readers of values leaves anything else than an end of what it is given. -/
structure KeepsAll (fuel : Nat) : Prop where
  value : ∀ cs, Keeps cs (readValue fuel cs)
  items : ∀ cs, Keeps cs (readItems fuel cs)
  members : ∀ cs, Keeps cs (readMembers fuel cs)

theorem keepsAll_zero : KeepsAll 0 where
  value _ := keeps_error nofun
  items _ := keeps_error nofun
  members _ := keeps_error nofun

variable {fuel : Nat}

theorem suffix_of_skip {r rest : List Char} {c : Char} (h : skip r = c :: rest) : rest <:+ r :=
  (List.suffix_cons c rest).trans (h ▸ skip_suffix r)

theorem KeepsAll.value_succ (h : KeepsAll fuel) (cs : List Char) :
    Keeps cs (readValue (fuel + 1) cs) := by
  unfold readValue
  split
  · next r => exact ((keeps_readText r).map text).mono (List.suffix_cons _ r)
  · next r =>
    split
    · next rest hs => exact (keeps_ok (suffix_of_skip hs)).mono (List.suffix_cons _ r)
    · next rest hs =>
      exact ((h.members (skip r)).map fun ms => object (Assoc.ofPairs ms)).mono
        ((skip_suffix r).trans (List.suffix_cons _ r))
  · next r =>
    split
    · next rest hs => exact (keeps_ok (suffix_of_skip hs)).mono (List.suffix_cons _ r)
    · next rest hs =>
      exact ((h.items (skip r)).map list).mono ((skip_suffix r).trans (List.suffix_cons _ r))
  · next r => exact keeps_ok (List.suffix_append ['n', 'u', 'l', 'l'] r)
  · next r => exact keeps_ok (List.suffix_append ['t', 'r', 'u', 'e'] r)
  · next r => exact keeps_ok (List.suffix_append ['f', 'a', 'l', 's', 'e'] r)
  · next r => exact keeps_ok (List.suffix_append ['N', 'a', 'N'] r)
  · next r => exact keeps_ok (List.suffix_append ['I', 'n', 'f', 'i', 'n', 'i', 't', 'y'] r)
  · next r => exact keeps_ok (List.suffix_append ['-', 'I', 'n', 'f', 'i', 'n', 'i', 't', 'y'] r)
  · exact keeps_readNumber cs

theorem KeepsAll.items_succ (h : KeepsAll fuel) (cs : List Char) :
    Keeps cs (readItems (fuel + 1) cs) := by
  unfold readItems
  refine (h.value cs).bind fun v r hr => ?_
  dsimp only
  split
  · next rest hs => exact keeps_ok ((suffix_of_skip hs).trans hr)
  · next rest hs =>
    have hrest : skip rest <:+ cs := (skip_suffix rest).trans ((suffix_of_skip hs).trans hr)
    exact ((h.items (skip rest)).map (v :: ·)).mono hrest
  · exact keeps_error nofun

theorem KeepsAll.members_succ (h : KeepsAll fuel) (cs : List Char) :
    Keeps cs (readMembers (fuel + 1) cs) := by
  unfold readMembers
  split
  · next r =>
    refine ((keeps_readText r).bind fun name t ht => ?_).mono (List.suffix_cons _ r)
    dsimp only
    split
    · next u hu =>
      have hsu : skip u <:+ r := (skip_suffix u).trans ((suffix_of_skip hu).trans ht)
      refine ((h.value (skip u)).mono hsu).bind fun v w hw => ?_
      dsimp only
      split
      · next rest hs => exact keeps_ok ((suffix_of_skip hs).trans hw)
      · next rest hs =>
        have hrest : skip rest <:+ r := (skip_suffix rest).trans ((suffix_of_skip hs).trans hw)
        exact ((h.members (skip rest)).map ((name, v) :: ·)).mono hrest
      · exact keeps_error nofun
    · exact keeps_error nofun
  · exact keeps_error nofun

theorem keepsAll (fuel : Nat) : KeepsAll fuel := by
  induction fuel with
  | zero => exact keepsAll_zero
  | succ fuel ih => exact ⟨ih.value_succ, ih.items_succ, ih.members_succ⟩

end Values

section Parsing

variable {f : Fault} {digits : Nat} {s : String}

theorem readAll_longInteger {t : Stop} (h : readAll cs = .error t)
    (hc : t.cause = .longInteger digits) : t.rest <:+ cs ∧ BeginsOverlong digits t.rest := by
  rcases bind_eq_error_iff.mp h with hv | ⟨⟨v, r⟩, -, hr⟩
  · exact (((keepsAll _).value (skip cs)).mono (skip_suffix cs)).stop t digits hv hc
  · dsimp only at hr
    split at hr
    · cases hr
    · cases hr
      cases hc

theorem drop_offset {t : Stop} (h : t.rest <:+ cs) : cs.drop (t.locate cs).offset = t.rest := by
  obtain ⟨before, rfl⟩ := h
  simp [Stop.locate]

theorem beginsOverlong_of_parse (h : parse s = .error f) (hc : f.cause = .longInteger digits) :
    BeginsOverlong digits (s.toList.drop f.offset) := by
  unfold parse at h
  split at h
  · cases h
    cases hc
  · obtain ⟨t, ht, rfl⟩ := mapError_eq_error_iff.mp h
    obtain ⟨hr, hb⟩ := readAll_longInteger ht hc
    rwa [drop_offset hr]

end Parsing

end Readers

section Alone

variable {ds : List Char}

theorem ne_cons_of_digits (hd : ∀ c ∈ ds, isNumeral c) {c : Char} (hc : isNumeral c = false)
    (cs : List Char) : ds ≠ c :: cs := by
  rintro rfl
  rw [hd c List.mem_cons_self] at hc
  cases hc

theorem skip_digits (hd : ∀ c ∈ ds, isNumeral c) : skip ds = ds := by
  cases ds with
  | nil => rfl
  | cons c cs =>
    refine List.dropWhile_cons_of_neg fun hs => ?_
    simp only [isSpace, Bool.or_eq_true, decide_eq_true_eq] at hs
    rcases hs with ((rfl | rfl) | rfl) | rfl
    all_goals exact absurd (hd _ List.mem_cons_self) (by decide)

theorem readWhole_digits (hd : ∀ c ∈ ds, isNumeral c) (hn : ds ≠ []) (hz : ds.head? ≠ some '0') :
    readWhole ds = some (ds, []) := by
  unfold readWhole
  split
  · exact absurd rfl hz
  · have ht : ds.takeWhile isNumeral = ds := List.takeWhile_eq_self_iff.mpr hd
    have hr : ds.dropWhile isNumeral = [] := List.dropWhile_eq_nil_iff.mpr hd
    rw [ht, hr]
    exact if_neg fun he => hn (List.isEmpty_iff.mp he)

theorem readNumber_digits (hd : ∀ c ∈ ds, isNumeral c) (hl : 4300 < ds.length)
    (hz : ds.head? ≠ some '0') : readNumber ds = .error ⟨.longInteger ds.length, ds⟩ := by
  obtain ⟨negative, body, rfl | hm, hr⟩ := exists_readUnsigned ds
  · have hn : ds ≠ [] := List.ne_nil_of_length_pos (by omega)
    rw [hr, readUnsigned, readWhole_digits hd hn hz]
    exact if_pos hl
  · exact absurd hm (ne_cons_of_digits hd (by decide) body)

theorem readValue_digits (hd : ∀ c ∈ ds, isNumeral c) (fuel : Nat) :
    readValue (fuel + 1) ds = readNumber ds := by
  have hn := fun {c} => ne_cons_of_digits (c := c) hd
  unfold readValue
  split
  case h_10 => rfl
  all_goals exact absurd rfl (hn (by decide) _)

theorem parse_digits (hd : ∀ c ∈ ds, isNumeral c) (hl : 4300 < ds.length)
    (hz : ds.head? ≠ some '0') :
    parse (String.ofList ds) = .error ⟨.longInteger ds.length, 0, 1, 1⟩ := by
  have ha : readAll ds = .error ⟨.longInteger ds.length, ds⟩ :=
    bind_eq_error_iff.mpr (.inl (by
      rw [skip_digits hd, readValue_digits hd, readNumber_digits hd hl hz]))
  rw [parse, String.toList_ofList]
  split
  · exact absurd rfl (ne_cons_of_digits hd (by decide) _)
  · rw [parseChars, ha]
    simp [Except.mapError, Stop.locate]

end Alone

end Json

namespace Fault

variable {f : Json.Fault} {digits : Nat}

theorem kind_json (h : ∀ digits, f.cause ≠ .longInteger digits) :
    (Fault.json f).kind = .validation := by
  rw [Fault.kind]
  split
  · next digits hc => exact absurd hc (h digits)
  · rfl

theorem kind_json_longInteger (h : f.cause = .longInteger digits) :
    (Fault.json f).kind = .value := by
  rw [Fault.kind, h]

end Fault

namespace Expr

open Json

section Refusal

variable {s : String} {f : Fault}

theorem kind_of_read {strict : Bool} {v : Json} (h : read strict v = .error f) :
    f.kind = .validation := by
  obtain ⟨g, -, rfl⟩ := mapError_eq_error_iff.mp h
  rfl

theorem ofJsonText_error_iff : ofJsonText s = .error f ↔
    (∃ j, parse s = .error j ∧ Fault.json j = f) ∨
      ∃ v, parse s = .ok v ∧ read true v = .error f := by
  simp only [ofJsonText, bind_eq_error_iff, mapError_eq_error_iff, mapError_eq_ok_iff]

theorem exists_longInteger (h : ofJsonText s = .error f) (hk : f.kind ≠ .validation) :
    ∃ j d, f = .json j ∧ parse s = .error j ∧ j.cause = .longInteger d := by
  rcases ofJsonText_error_iff.mp h with ⟨j, hj, rfl⟩ | ⟨v, -, hv⟩
  · by_contra hd
    exact hk (Fault.kind_json fun d hc => hd ⟨j, d, rfl, hj, hc⟩)
  · exact absurd (kind_of_read hv) hk

theorem exists_not_refused_iff : (∃ f, ofJsonText s = .error f ∧ f.kind ≠ .validation) ↔
    ∃ j d, parse s = .error j ∧ j.cause = .longInteger d := by
  constructor
  · rintro ⟨f, hf, hk⟩
    obtain ⟨j, d, -, hj, hc⟩ := exists_longInteger hf hk
    exact ⟨j, d, hj, hc⟩
  · rintro ⟨j, d, hj, hc⟩
    refine ⟨.json j, ofJsonText_error_iff.mpr (.inl ⟨j, hj, rfl⟩), ?_⟩
    rw [Fault.kind_json_longInteger hc]
    decide

theorem ofJsonText_cases (s : String) : (∃ e, ofJsonText s = .ok e) ∨
    (∃ f, ofJsonText s = .error f ∧ f.kind = .validation) ∨
    ∃ j d, ofJsonText s = .error (.json j) ∧ parse s = .error j ∧ j.cause = .longInteger d := by
  cases h : ofJsonText s with
  | ok e => exact .inl ⟨e, rfl⟩
  | error f =>
    by_cases hk : f.kind = .validation
    · exact .inr (.inl ⟨f, rfl, hk⟩)
    · obtain ⟨j, d, rfl, hj, hc⟩ := exists_longInteger h hk
      exact .inr (.inr ⟨j, d, rfl, hj, hc⟩)

theorem not_longInteger_of_short (h : ∀ ds, ds <:+: s.toList → (∀ c ∈ ds, isNumeral c) →
    ds.length ≤ 4300) {j : Json.Fault} (hj : parse s = .error j) (d : Nat) :
    j.cause ≠ .longInteger d := by
  intro hc
  obtain ⟨ds, after, hs, -, long⟩ := beginsOverlong_of_parse hj hc
  have hi : ds <:+: s.toList.drop j.offset := by
    rcases hs with hs | hs
    · exact ⟨[], after, hs.symm⟩
    · exact ⟨['-'], after, hs.symm⟩
  exact absurd (h ds (hi.trans (List.drop_suffix _ _).isInfix) long.digits)
    (Nat.not_le.mpr long.long)

end Refusal

/-- Reading JSON text gives an expression or is refused, unless parsing stops at an overlong integer:
that is a fault of another class, and there an integer of more than 4300 digits stands in the text.
So a text without so many digits in a row is read or refused. -/
theorem ofJsonText_refused_or_overlong (s : String) :
    ((∃ e, ofJsonText s = .ok e) ∨ (∃ f, ofJsonText s = .error f ∧ f.kind = .validation) ∨
      ∃ j d, ofJsonText s = .error (.json j) ∧ j.cause = .longInteger d ∧
        (Fault.json j).kind = .value) ∧
    ((∃ f, ofJsonText s = .error f ∧ f.kind ≠ .validation) ↔
      ∃ j d, parse s = .error j ∧ j.cause = .longInteger d) ∧
    (∀ j d, parse s = .error j → j.cause = .longInteger d →
      BeginsOverlong d (s.toList.drop j.offset)) ∧
    ((∀ ds, ds <:+: s.toList → (∀ c ∈ ds, isNumeral c) → ds.length ≤ 4300) →
      (∃ e, ofJsonText s = .ok e) ∨ ∃ f, ofJsonText s = .error f ∧ f.kind = .validation) := by
  refine ⟨?_, exists_not_refused_iff, fun j d => beginsOverlong_of_parse, fun hs => ?_⟩
  · obtain h | h | ⟨j, d, h, -, hc⟩ := ofJsonText_cases s
    · exact .inl h
    · exact .inr (.inl h)
    · exact .inr (.inr ⟨j, d, h, hc, Fault.kind_json_longInteger hc⟩)
  · obtain h | h | ⟨j, d, -, hj, hc⟩ := ofJsonText_cases s
    · exact .inl h
    · exact .inr h
    · exact absurd hc (not_longInteger_of_short hs hj d)

theorem openList_refused :
    (∃ e, ofJsonText "[1" = .ok e) ∨ ∃ f, ofJsonText "[1" = .error f ∧ f.kind = .validation :=
  (ofJsonText_refused_or_overlong "[1").2.2.2 fun _ hi _ =>
    hi.length_le.trans (by decide)

def ones (n : Nat) : String :=
  String.ofList (List.replicate n '1')

theorem parse_ones {n : Nat} (h : 4300 < n) :
    parse (ones n) = .error ⟨.longInteger n, 0, 1, 1⟩ := by
  have hd : ∀ c ∈ List.replicate n '1', isNumeral c := fun c hc => by
    rw [List.eq_of_mem_replicate hc]
    decide
  have hz : (List.replicate n '1').head? ≠ some '0' := by
    rw [List.head?_replicate, if_neg (by omega)]
    decide
  have hp := parse_digits hd (by rwa [List.length_replicate]) hz
  rwa [List.length_replicate] at hp

theorem overlongOnes_fail :
    ofJsonText (ones 4301) = .error (.json ⟨.longInteger 4301, 0, 1, 1⟩) ∧
      (Fault.json ⟨.longInteger 4301, 0, 1, 1⟩).kind = .value :=
  ⟨ofJsonText_error_iff.mpr (.inl ⟨_, parse_ones (by decide), rfl⟩), rfl⟩

end Expr

end RuleTables
