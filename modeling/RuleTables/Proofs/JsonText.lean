import RuleTables.Json.Printer
import RuleTables.Json.Reader

namespace RuleTables

namespace Text

theorem hexValue?_hexDigit {n : Nat} (h : n < 16) : hexValue? (hexDigit n) = some n := by
  have all : ∀ n < 16, hexValue? (hexDigit n) = some n := by decide
  exact all n h

end Text

namespace Assoc

variable {α : Type}

theorem put_of_not_mem {name : String} {ms : List (String × α)} (value : α)
    (h : name ∉ ms.map (·.1)) : put name value ms = ms ++ [(name, value)] := by
  induction ms with
  | nil => rfl
  | cons m ms ih =>
    obtain ⟨hm, hs⟩ : m.1 ≠ name ∧ name ∉ ms.map (·.1) := by simpa [eq_comm] using h
    rw [put, if_neg hm, ih hs, List.cons_append]

theorem ofPairs_of_nodup {ms : List (String × α)} (h : (ms.map (·.1)).Nodup) :
    ofPairs ms = ms := by
  have run : ∀ acc, ((acc ++ ms).map (·.1)).Nodup →
      ms.foldl (fun acc m => put m.1 m.2 acc) acc = acc ++ ms := by
    clear h
    induction ms with
    | nil => simp
    | cons m ms ih =>
      intro acc h
      have hm : m.1 ∉ acc.map (·.1) := by
        rw [List.map_append, List.nodup_append] at h
        exact fun hm => h.2.2 m.1 hm m.1 (by simp) rfl
      rw [List.foldl_cons, put_of_not_mem m.2 hm, ih (acc ++ [m]) (by simpa using h)]
      simp
  exact run [] h

end Assoc

namespace Json

section Texts

variable {opening rest : List Char}

theorem hexQuad?_hexDigits {n : Nat} (h : n < 0x10000) :
    ∃ a b c d, Text.hexDigits 4 n = [a, b, c, d] ∧ hexQuad? a b c d = some n := by
  refine ⟨Text.hexDigit (n / 16 / 16 / 16 % 16), Text.hexDigit (n / 16 / 16 % 16),
    Text.hexDigit (n / 16 % 16), Text.hexDigit (n % 16), rfl, ?_⟩
  have digit : ∀ m, Text.hexValue? (Text.hexDigit (m % 16)) = some (m % 16) := fun m =>
    Text.hexValue?_hexDigit (Nat.mod_lt m (by decide))
  simp only [hexQuad?, digit, Option.some.injEq]
  omega

theorem readCodes_escapeChar (c e : Char) (cs : List Char) :
    readCodes opening (escapeChar false c ++ e :: cs) =
      (readCodes opening (e :: cs)).map fun r => (c.toNat :: r.1, r.2) := by
  have named : ∀ d : Char, c.toNat = d.toNat → c = d := fun d => Char.toNat_inj.mp
  unfold escapeChar
  by_cases h₁ : c.toNat = 0x22
  · obtain rfl := named '\x22' h₁
    rfl
  by_cases h₂ : c.toNat = 0x5c
  · obtain rfl := named '\\' h₂
    rfl
  by_cases h₃ : c.toNat = 0x0a
  · obtain rfl := named '\n' h₃
    rfl
  by_cases h₄ : c.toNat = 0x0d
  · obtain rfl := named '\r' h₄
    rfl
  by_cases h₅ : c.toNat = 0x09
  · obtain rfl := named '\t' h₅
    rfl
  by_cases h₆ : c.toNat = 0x08
  · obtain rfl := named '\x08' h₆
    rfl
  by_cases h₇ : c.toNat = 0x0c
  · obtain rfl := named '\x0c' h₇
    rfl
  by_cases h₈ : c.toNat < 0x20
  · obtain ⟨x, y, z, w, hd, hq⟩ := hexQuad?_hexDigits (n := c.toNat) (by omega)
    simp [h₁, h₂, h₃, h₄, h₅, h₆, h₇, h₈, codeUnit, hd, readCodes, hq]
  · have hq : c ≠ '\x22' := fun h => h₁ (h ▸ rfl)
    have hb : c ≠ '\\' := fun h => h₂ (h ▸ rfl)
    simp [h₁, h₂, h₃, h₄, h₅, h₆, h₇, h₈, readCodes, hb]

theorem readCodes_escaped (cs : List Char) :
    readCodes opening (cs.flatMap (escapeChar false) ++ '\x22' :: rest) =
      .ok (cs.map Char.toNat, rest) := by
  induction cs with
  | nil => rfl
  | cons c cs ih =>
    -- the text goes on after the character, be it with the closing quote
    obtain ⟨e, t, ht⟩ : ∃ e t, cs.flatMap (escapeChar false) ++ '\x22' :: rest = e :: t :=
      List.exists_cons_of_ne_nil (by simp)
    rw [List.flatMap_cons, List.append_assoc, ht, readCodes_escapeChar, ← ht, ih]
    rfl

theorem toNat_not_half (c : Char) : ¬ (0xd800 ≤ c.toNat ∧ c.toNat < 0xe000) := by
  have hv : c.toNat < 0xd800 ∨ 0xdfff < c.toNat ∧ c.toNat < 0x110000 := c.valid
  omega

theorem joinHalves_codes (cs : List Char) : joinHalves (cs.map Char.toNat) = cs := by
  -- characters are no halves of others, so their codes are not joined
  induction cs with
  | nil => rfl
  | cons c cs ih =>
    have hc := toNat_not_half c
    cases cs with
    | nil => simp [joinHalves, hc, Char.ofNat_toNat]
    | cons d cs =>
      have hj : ¬ (0xd800 ≤ c.toNat ∧ c.toNat < 0xdc00 ∧ 0xdc00 ≤ d.toNat ∧ d.toNat < 0xe000) := by
        omega
      rw [List.map_cons, List.map_cons, joinHalves, if_neg hj, if_neg hc, ← List.map_cons, ih,
        Char.ofNat_toNat]

theorem readText_escaped (s : String) :
    readText (s.toList.flatMap (escapeChar false) ++ '\x22' :: rest) = .ok (s, rest) := by
  rw [readText, readCodes_escaped]
  simp [Except.map, joinHalves_codes]

end Texts

section Spaces

variable {s t : List Char} {c : Char}

theorem skip_append (hs : ∀ c ∈ s, isSpace c) : skip (s ++ t) = skip t :=
  List.dropWhile_append_of_pos hs

theorem skip_cons (hc : isSpace c = false) : skip (c :: t) = c :: t :=
  List.dropWhile_cons_of_neg (by simp [hc])

/-- A layout that differs from the compact one in spaces alone, and keeps characters as they are. -/
structure Layout.IsLoose (l : Layout) : Prop where
  comma : ∃ s, l.comma = ',' :: s ∧ ∀ c ∈ s, isSpace c
  colon : ∃ s, l.colon = ':' :: s ∧ ∀ c ∈ s, isSpace c
  asciiOnly : l.asciiOnly = false

theorem isLoose_compact : compact.IsLoose :=
  ⟨⟨[], rfl, nofun⟩, ⟨[], rfl, nofun⟩, rfl⟩

theorem isLoose_pretty : pretty.IsLoose :=
  ⟨⟨[], rfl, nofun⟩, ⟨[' '], rfl, List.forall_mem_singleton.mpr rfl⟩, rfl⟩

theorem isSpace_of_mem_line {l : Layout} {depth : Nat} (h : c ∈ l.line depth) : isSpace c := by
  unfold Layout.line at h
  cases hi : l.indent with
  | none => simp [hi] at h
  | some width =>
    rw [hi] at h
    rcases List.mem_cons.mp h with rfl | h
    · rfl
    · rw [List.eq_of_mem_replicate h]
      rfl

end Spaces

mutual

/-- Whether there are no numbers in the value, and no name comes twice in an object. -/
def isPlain : Json → Bool
  | int _ | real _ => false
  | list items => arePlain items
  | object ms => (ms.map (·.1)).Nodup && membersArePlain ms
  | _ => true

def arePlain : List Json → Bool
  | [] => true
  | v :: vs => isPlain v && arePlain vs

def membersArePlain : Members → Bool
  | [] => true
  | (_, v) :: ms => isPlain v && membersArePlain ms

end

theorem isPlain_list {vs : List Json} : (list vs).isPlain ↔ ∀ v ∈ vs, v.isPlain := by
  rw [isPlain]
  induction vs with
  | nil => simp [arePlain]
  | cons v vs ih => rw [arePlain, Bool.and_eq_true, ih, List.forall_mem_cons]

theorem isPlain_object {ms : Members} :
    (object ms).isPlain ↔ (ms.map (·.1)).Nodup ∧ ∀ m ∈ ms, m.2.isPlain := by
  have values : membersArePlain ms ↔ ∀ m ∈ ms, m.2.isPlain := by
    induction ms with
    | nil => simp [membersArePlain]
    | cons m ms ih => rw [membersArePlain, Bool.and_eq_true, ih, List.forall_mem_cons]
  rw [isPlain, Bool.and_eq_true, decide_eq_true_eq, values]

theorem induct {motive : Json → Prop} (null : motive null) (bool : ∀ b, motive (bool b))
    (int : ∀ n, motive (int n)) (real : ∀ x, motive (real x)) (text : ∀ s, motive (text s))
    (list : ∀ vs, (∀ v ∈ vs, motive v) → motive (list vs))
    (object : ∀ ms, (∀ m ∈ ms, motive m.2) → motive (object ms)) (v : Json) : motive v :=
  @Json.rec motive (fun vs => ∀ v ∈ vs, motive v) (fun ms => ∀ m ∈ ms, motive m.2)
    (fun m => motive m.2) null bool int real text list object
    (fun _ h => absurd h List.not_mem_nil)
    (fun _ _ hv hvs w hw => (List.mem_cons.mp hw).elim (fun he => he ▸ hv) (hvs w))
    (fun _ h => absurd h List.not_mem_nil)
    (fun _ _ hm hms k hk => (List.mem_cons.mp hk).elim (fun he => he ▸ hm) (hms k))
    (fun _ _ h => h) v

section Values

variable {l : Layout}

/-- A value is read where it was written, as long as the reader may take a step for each of its
characters. -/
def Returns (l : Layout) (v : Json) : Prop :=
  ∀ depth fuel rest, (write l depth v).length ≤ fuel →
    readValue fuel (write l depth v ++ rest) = .ok (v, rest)

def openings : List Char := ['n', 't', 'f', '\x22', '[', '\x7b']

theorem exists_opening {v : Json} (h : v.isPlain) (l : Layout) (depth : Nat) :
    ∃ c t, write l depth v = c :: t ∧ c ∈ openings := by
  cases v with
  | null => exact ⟨_, _, rfl, by decide⟩
  | bool b => cases b <;> exact ⟨_, _, rfl, by decide⟩
  | int n => cases h
  | real x => cases h
  | text s => exact ⟨_, _, rfl, by decide⟩
  | list vs => cases vs <;> exact ⟨'[', _, rfl, by decide⟩
  | object ms => cases ms <;> exact ⟨'\x7b', _, rfl, by decide⟩

theorem skip_write {v : Json} (h : v.isPlain) (depth : Nat) (rest : List Char) :
    skip (write l depth v ++ rest) = write l depth v ++ rest := by
  have openings_no_space : ∀ c ∈ openings, isSpace c = false := by simp [openings, isSpace]
  obtain ⟨c, t, hw, hc⟩ := exists_opening h l depth
  rw [hw, List.cons_append, skip_cons (openings_no_space c hc)]

theorem skip_line (depth : Nat) (t : List Char) : skip (l.line depth ++ t) = skip t :=
  skip_append fun _ => isSpace_of_mem_line

theorem renderText_append (hl : l.IsLoose) (s : String) (rest : List Char) :
    renderText l.asciiOnly s.toList ++ rest =
      '\x22' :: (s.toList.flatMap (escapeChar false) ++ '\x22' :: rest) := by
  rw [renderText, hl.asciiOnly]
  simp [Text.doubleQuote]

theorem returns_of_step {v : Json} {w : List Char} (hw : ∀ depth, write l depth v = w)
    (hn : w ≠ []) (h : ∀ fuel rest, readValue (fuel + 1) (w ++ rest) = .ok (v, rest)) :
    Returns l v := by
  intro depth fuel rest hf
  rw [hw] at hf ⊢
  have hp : 0 < w.length := List.length_pos_iff.mpr hn
  obtain ⟨k, rfl⟩ : ∃ k, fuel = k + 1 := Nat.exists_eq_succ_of_ne_zero (by omega)
  exact h k rest

theorem returns_text (hl : l.IsLoose) (s : String) : Returns l (text s) := by
  refine returns_of_step (fun _ => by rw [write]) (by simp [renderText]) fun fuel rest => ?_
  rw [renderText_append hl, readValue, readText_escaped]
  rfl

section Steps

variable {fuel : Nat} {cs r r' t t' rest : List Char} {v : Json} {vs : List Json} {ms : Members}
  {name : String}

theorem readItems_last (hv : readValue fuel cs = .ok (v, r)) (hr : skip r = ']' :: rest) :
    readItems (fuel + 1) cs = .ok ([v], rest) := by
  rw [readItems, hv]
  simp [bind, Except.bind, hr, pure, Except.pure]

theorem readItems_next (hv : readValue fuel cs = .ok (v, r)) (hr : skip r = ',' :: r')
    (hs : readItems fuel (skip r') = .ok (vs, rest)) :
    readItems (fuel + 1) cs = .ok (v :: vs, rest) := by
  rw [readItems, hv]
  simp [bind, Except.bind, hr, hs, pure, Except.pure]

theorem readMembers_last (hn : readText cs = .ok (name, r)) (hr : skip r = ':' :: r')
    (hv : readValue fuel (skip r') = .ok (v, t)) (ht : skip t = '\x7d' :: rest) :
    readMembers (fuel + 1) ('\x22' :: cs) = .ok ([(name, v)], rest) := by
  rw [readMembers, hn]
  simp [bind, Except.bind, hr, hv, ht, pure, Except.pure]

theorem readMembers_next (hn : readText cs = .ok (name, r)) (hr : skip r = ':' :: r')
    (hv : readValue fuel (skip r') = .ok (v, t)) (ht : skip t = ',' :: t')
    (hs : readMembers fuel (skip t') = .ok (ms, rest)) :
    readMembers (fuel + 1) ('\x22' :: cs) = .ok ((name, v) :: ms, rest) := by
  rw [readMembers, hn]
  simp [bind, Except.bind, hr, hv, ht, hs, pure, Except.pure]

theorem readValue_list {c : Char} (hc : c ≠ ']') (hr : skip r = c :: t)
    (hs : readItems fuel (c :: t) = .ok (vs, rest)) :
    readValue (fuel + 1) ('[' :: r) = .ok (list vs, rest) := by
  rw [readValue, hr]
  simp [hc, hs, Except.map]

theorem readValue_object {c : Char} (hc : c ≠ '\x7d') (hr : skip r = c :: t)
    (hs : readMembers fuel (c :: t) = .ok (ms, rest)) :
    readValue (fuel + 1) ('\x7b' :: r) = .ok (object (Assoc.ofPairs ms), rest) := by
  rw [readValue, hr]
  simp [hc, hs, Except.map]

end Steps

theorem readItems_items (hl : l.IsLoose) {v : Json} {vs : List Json}
    (hp : ∀ w ∈ v :: vs, w.isPlain) (h : ∀ w ∈ v :: vs, Returns l w) (depth fuel : Nat)
    {s : List Char} (hs : ∀ c ∈ s, isSpace c) (rest : List Char)
    (hf : (write l depth v ++ writeItems l depth vs).length < fuel) :
    readItems fuel (write l depth v ++ (writeItems l depth vs ++ (s ++ ']' :: rest))) =
      .ok (v :: vs, rest) := by
  induction vs generalizing v fuel with
  | nil =>
    obtain ⟨k, rfl⟩ : ∃ k, fuel = k + 1 := Nat.exists_eq_succ_of_ne_zero (by omega)
    simp only [writeItems, List.append_nil] at hf
    have hv := h v List.mem_cons_self depth k (s ++ ']' :: rest) (by omega)
    exact readItems_last hv ((skip_append hs).trans (skip_cons rfl))
  | cons w ws ih =>
    obtain ⟨k, rfl⟩ : ∃ k, fuel = k + 1 := Nat.exists_eq_succ_of_ne_zero (by omega)
    obtain ⟨c, hc, hcs⟩ := hl.comma
    rw [writeItems, hc] at hf ⊢
    simp only [List.append_assoc, List.cons_append, List.length_append, List.length_cons] at hf ⊢
    have hv := fun t => h v List.mem_cons_self depth k t (by omega)
    refine readItems_next (hv _) (skip_cons rfl) ?_
    rw [skip_append hcs, skip_line, skip_write (hp w (by simp))]
    exact ih (fun x hx => hp x (List.mem_cons_of_mem v hx))
      (fun x hx => h x (List.mem_cons_of_mem v hx)) k (by rw [List.length_append]; omega)

theorem exists_colon (hl : l.IsLoose) {v : Json} (hp : v.isPlain) (h : Returns l v)
    (depth fuel : Nat) (hf : (l.colon ++ write l depth v).length ≤ fuel + 1) :
    ∃ b, l.colon = ':' :: b ∧
      ∀ t, readValue fuel (skip (b ++ (write l depth v ++ t))) = .ok (v, t) := by
  obtain ⟨b, hb, hbs⟩ := hl.colon
  refine ⟨b, hb, fun t => ?_⟩
  rw [skip_append hbs, skip_write hp]
  refine h depth fuel t ?_
  simp only [hb, List.length_append, List.length_cons] at hf
  omega

theorem readMembers_members (hl : l.IsLoose) {m : String × Json} {ms : Members}
    (hp : ∀ k ∈ m :: ms, k.2.isPlain) (h : ∀ k ∈ m :: ms, Returns l k.2) (depth fuel : Nat)
    {s : List Char} (hs : ∀ c ∈ s, isSpace c) (rest : List Char)
    (hf : (l.colon ++ (write l depth m.2 ++ writeMembers l depth ms)).length < fuel) :
    readMembers fuel (renderText l.asciiOnly m.1.toList ++ (l.colon ++ (write l depth m.2 ++
      (writeMembers l depth ms ++ (s ++ '\x7d' :: rest))))) = .ok (m :: ms, rest) := by
  induction ms generalizing m fuel with
  | nil =>
    obtain ⟨k, rfl⟩ : ∃ k, fuel = k + 1 := Nat.exists_eq_succ_of_ne_zero (by omega)
    obtain ⟨b, hb, hv⟩ := exists_colon hl (hp m List.mem_cons_self) (h m List.mem_cons_self)
      depth k (by simp only [List.length_append] at hf ⊢; omega)
    rw [renderText_append hl, hb, List.cons_append, writeMembers, List.nil_append]
    exact readMembers_last (readText_escaped m.1) (skip_cons rfl) (hv _)
      ((skip_append hs).trans (skip_cons rfl))
  | cons n ns ih =>
    obtain ⟨k, rfl⟩ : ∃ k, fuel = k + 1 := Nat.exists_eq_succ_of_ne_zero (by omega)
    obtain ⟨b, hb, hv⟩ := exists_colon hl (hp m List.mem_cons_self) (h m List.mem_cons_self)
      depth k (by simp only [List.length_append] at hf ⊢; omega)
    obtain ⟨c, hc, hcs⟩ := hl.comma
    have hn := ih (fun x hx => hp x (List.mem_cons_of_mem m hx))
      (fun x hx => h x (List.mem_cons_of_mem m hx)) k (by
        simp only [writeMembers, hc, List.length_append, List.length_cons] at hf ⊢
        omega)
    rw [renderText_append hl, hb, List.cons_append, writeMembers, hc]
    simp only [List.append_assoc, List.cons_append]
    refine readMembers_next (readText_escaped m.1) (skip_cons rfl) (hv _) (skip_cons rfl) ?_
    rw [skip_append hcs, skip_line, renderText_append hl, skip_cons rfl, ← renderText_append hl]
    exact hn

theorem returns_list (hl : l.IsLoose) {vs : List Json} (hp : ∀ v ∈ vs, v.isPlain)
    (h : ∀ v ∈ vs, Returns l v) : Returns l (list vs) := by
  cases vs with
  | nil => exact returns_of_step (w := ['[', ']']) (fun _ => rfl) (by decide) fun _ _ => rfl
  | cons v vs =>
    intro depth fuel rest hf
    rw [write] at hf ⊢
    simp only [List.append_assoc, List.cons_append, List.length_append, List.length_cons,
      List.nil_append] at hf ⊢
    obtain ⟨k, rfl⟩ : ∃ k, fuel = k + 1 := Nat.exists_eq_succ_of_ne_zero (by omega)
    have hi := readItems_items hl hp h (depth + 1) k (s := l.line depth)
      (fun _ => isSpace_of_mem_line) rest (by rw [List.length_append]; omega)
    have hs := fun t => skip_write (l := l) (hp v List.mem_cons_self) (depth + 1) t
    obtain ⟨c, t, hw, hc⟩ := exists_opening (hp v List.mem_cons_self) l (depth + 1)
    simp only [hw, List.cons_append] at hi hs ⊢
    exact readValue_list (by rintro rfl; revert hc; decide) ((skip_line _ _).trans (hs _)) hi

theorem returns_object (hl : l.IsLoose) {ms : Members} (hd : (ms.map (·.1)).Nodup)
    (hp : ∀ m ∈ ms, m.2.isPlain) (h : ∀ m ∈ ms, Returns l m.2) : Returns l (object ms) := by
  cases ms with
  | nil => exact returns_of_step (w := ['\x7b', '\x7d']) (fun _ => rfl) (by decide) fun _ _ => rfl
  | cons m ms =>
    intro depth fuel rest hf
    rw [write] at hf ⊢
    simp only [List.append_assoc, List.cons_append, List.length_append, List.length_cons,
      List.nil_append] at hf ⊢
    obtain ⟨k, rfl⟩ : ∃ k, fuel = k + 1 := Nat.exists_eq_succ_of_ne_zero (by omega)
    have hm := readMembers_members hl hp h (depth + 1) k (s := l.line depth)
      (fun _ => isSpace_of_mem_line) rest (by simp only [List.length_append]; omega)
    rw [renderText_append hl] at hm ⊢
    rw [readValue_object (by decide) ((skip_line _ _).trans (skip_cons rfl)) hm,
      Assoc.ofPairs_of_nodup hd]

theorem returns_of_isPlain (hl : l.IsLoose) {v : Json} (h : v.isPlain) : Returns l v := by
  induction v using induct with
  | null =>
    exact returns_of_step (w := ['n', 'u', 'l', 'l']) (fun _ => rfl) (by decide) fun _ _ => rfl
  | bool b =>
    cases b with
    | true =>
      exact returns_of_step (w := ['t', 'r', 'u', 'e']) (fun _ => rfl) (by decide) fun _ _ => rfl
    | false =>
      exact returns_of_step (w := ['f', 'a', 'l', 's', 'e']) (fun _ => rfl) (by decide)
        fun _ _ => rfl
  | int n => cases h
  | real x => cases h
  | text s => exact returns_text hl s
  | list vs ih =>
    have hp := isPlain_list.mp h
    exact returns_list hl hp fun v hv => ih v hv (hp v hv)
  | object ms ih =>
    obtain ⟨hd, hp⟩ := isPlain_object.mp h
    exact returns_object hl hd hp fun m hm => ih m hm (hp m hm)

/-- A plain value comes back from its text. -/
theorem parse_render (hl : l.IsLoose) {v : Json} (h : v.isPlain) : parse (render l v) = .ok v := by
  have hs : skip (write l 0 v) = write l 0 v := by simpa using skip_write h 0 []
  have hv : readValue (2 * (write l 0 v).length + 2) (write l 0 v) = .ok (v, []) := by
    simpa using returns_of_isPlain hl h 0 (2 * (write l 0 v).length + 2) [] (by omega)
  have hm : parse (render l v) = parseChars (write l 0 v) := by
    obtain ⟨c, t, hw, hc⟩ := exists_opening h l 0
    rw [parse, render, String.toList_ofList, hw]
    split
    · next hb => exact absurd ((List.cons.inj hb).1 ▸ hc) (by decide)
    · rfl
  have ha : readAll (write l 0 v) = .ok v := by
    rw [readAll, hs, hv]
    rfl
  rw [hm, parseChars, ha]
  rfl

end Values

end Json

end RuleTables
