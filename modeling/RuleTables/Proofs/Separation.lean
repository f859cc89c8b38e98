import Mathlib.Data.List.DropRight
import RuleTables.Text.Blank
import RuleTables.Text.Pieces

namespace RuleTables.Text

section Words

variable {w xs ys : List Char}

theorem hasInfix_iff : hasInfix w xs ↔ w <:+: xs := by
  induction xs with
  | nil => simp [hasInfix]
  | cons x xs ih => simp [hasInfix, ih, List.infix_cons_iff, List.isPrefixOf_iff_prefix]

theorem holds_iff {s word : String} : holds s word ↔ word.toList <:+: s.toList :=
  hasInfix_iff

theorem holds_eq_false_iff {s word : String} :
    holds s word = false ↔ ¬ word.toList <:+: s.toList := by
  rw [← Bool.not_eq_true, holds_iff]

theorem holds_eq_false_of_not_mem (word : String) {s : String} {c : Char} (hw : c ∈ word.toList)
    (hs : c ∉ s.toList) : holds s word = false :=
  holds_eq_false_iff.mpr fun h => hs (h.subset hw)

theorem prefix_append_cons (xs : List Char) {c : Char} (hc : c ∉ w) (h : w <+: xs ++ c :: ys) :
    w <+: xs := by
  rcases List.prefix_or_prefix_of_prefix h (List.prefix_append xs (c :: ys)) with h' | ⟨t, rfl⟩
  · exact h'
  · rw [List.prefix_append_right_inj] at h
    cases t with
    | nil => simp
    | cons d t =>
      rw [List.cons_prefix_cons] at h
      exact absurd (by simp [h.1]) hc

theorem infix_append_cons {c : Char} (hc : c ∉ w) :
    w <:+: xs ++ c :: ys ↔ w <:+: xs ∨ w <:+: ys := by
  constructor
  · intro h
    induction xs with
    | nil =>
      rw [List.nil_append, List.infix_cons_iff] at h
      rcases h with h | h
      · exact .inl (prefix_append_cons [] hc h).isInfix
      · exact .inr h
    | cons x xs ih =>
      rw [List.cons_append, List.infix_cons_iff] at h
      rcases h with h | h
      · exact .inl (prefix_append_cons (x :: xs) hc h).isInfix
      · exact (ih h).imp_left fun h => h.trans (List.suffix_cons x xs).isInfix
  · rintro (h | h)
    · exact h.trans (List.prefix_append xs (c :: ys)).isInfix
    · exact h.trans ((List.suffix_cons c ys).trans (List.suffix_append xs (c :: ys))).isInfix

theorem holds_append_comma {s t word : String} (h : ',' ∉ word.toList) :
    holds (s ++ "," ++ t) word = (holds s word || holds t word) := by
  rw [Bool.eq_iff_iff, Bool.or_eq_true, holds_iff, holds_iff, holds_iff, String.toList_append,
    String.toList_append, List.append_assoc]
  exact infix_append_cons h

end Words

/-- What distributes over the separator is found part by part in a joined text. -/
theorem flatMap_of_join {α : Type} {f : String → List α} {sep : String} {ts : List String}
    (h : ∀ s t, f (s ++ sep ++ t) = f s ++ f t) (hn : ts ≠ []) :
    f (join sep ts) = ts.flatMap f := by
  cases ts with
  | nil => exact absurd rfl hn
  | cons t ts =>
    induction ts generalizing t with
    | nil => rw [join, String.intercalate_singleton, List.flatMap_singleton]
    | cons u ts ih =>
      have hu : f (join sep (u :: ts)) = (u :: ts).flatMap f := ih u (List.cons_ne_nil u ts)
      rw [join, String.intercalate_cons_cons, h, ← join, hu, ← List.flatMap_cons]

section Commas

theorem splitAt_eq_splitOn (c : Char) (cs : List Char) : splitAt c cs = cs.splitOn c := by
  induction cs with
  | nil => rfl
  | cons d cs ih =>
    rw [splitAt, List.splitOn_cons_eq_if_modifyHead, ih]
    obtain ⟨p, ps, hp⟩ := List.exists_cons_of_ne_nil (List.splitOn_ne_nil c cs)
    by_cases h : d = c <;> simp [h, hp, consHead]

theorem pieces_append_comma (s t : String) :
    pieces ',' (s ++ "," ++ t) = pieces ',' s ++ pieces ',' t := by
  rw [pieces, splitAt_eq_splitOn, String.toList_append, String.toList_append, List.append_assoc]
  exact (congrArg _ (List.splitOn_append_cons_self s.toList t.toList)).trans
    (by rw [List.map_append, pieces, pieces, splitAt_eq_splitOn, splitAt_eq_splitOn])

theorem pieces_eq_singleton {s : String} (h : ',' ∉ s.toList) : pieces ',' s = [s] := by
  rw [pieces, splitAt_eq_splitOn, List.splitOn_eq_singleton h]
  simp

theorem pieces_ne_nil (c : Char) (s : String) : pieces c s ≠ [] := by
  rw [pieces, splitAt_eq_splitOn]
  simp

theorem join_pieces (s : String) : join "," (pieces ',' s) = s := by
  rw [← String.toList_inj, join, String.toList_intercalate, pieces, splitAt_eq_splitOn,
    List.map_map]
  simp

theorem join_eq_empty_iff {parts : List String} :
    join ", " parts = "" ↔ parts = [] ∨ parts = [""] := by
  match parts with
  | [] => simp [join]
  | [p] => simp [join]
  | p :: q :: ps => simp [join]

theorem not_mem_of_mem_splitAt {c : Char} {cs p : List Char} (h : p ∈ splitAt c cs) : c ∉ p := by
  induction cs generalizing p with
  | nil => simp [List.mem_singleton.mp h]
  | cons d cs ih =>
    rw [splitAt] at h
    split at h
    · rcases List.mem_cons.mp h with rfl | h
      · simp
      · exact ih h
    · next hd =>
      cases hs : splitAt c cs with
      | nil =>
        rw [hs] at h
        simp [List.mem_singleton.mp h, Ne.symm hd]
      | cons q qs =>
        rw [hs] at h ih
        rcases List.mem_cons.mp h with rfl | h
        · simp [Ne.symm hd, ih List.mem_cons_self]
        · exact ih (List.mem_cons_of_mem _ h)

theorem not_mem_of_mem_pieces {c : Char} {s p : String} (h : p ∈ pieces c s) : c ∉ p.toList := by
  obtain ⟨q, hq, rfl⟩ := List.mem_map.mp h
  rw [String.toList_ofList]
  exact not_mem_of_mem_splitAt hq

end Commas

section Pairs

variable {a b : Char} {xs ys : List Char}

theorem splitAtPair_ne_nil (a b : Char) (xs : List Char) : splitAtPair a b xs ≠ [] := by
  fun_cases splitAtPair a b xs with
  | case1 => simp
  | case2 => simp
  | case3 => simp
  | case4 c d cs h => cases splitAtPair a b (d :: cs) <;> simp [consHead]

theorem splitAtPair_append (h : a ≠ b) (xs ys : List Char) :
    splitAtPair a b (xs ++ a :: b :: ys) = splitAtPair a b xs ++ splitAtPair a b ys := by
  fun_induction splitAtPair a b xs with
  | case1 => simp [splitAtPair]
  | case2 c => simp [splitAtPair, h, consHead]
  | case3 c d cs hc ih => simpa [splitAtPair, hc] using ih
  | case4 c d cs hc ih =>
    obtain ⟨p, ps, hp⟩ := List.exists_cons_of_ne_nil (splitAtPair_ne_nil a b (d :: cs))
    rw [hp, List.cons_append] at ih
    rw [List.cons_append, List.cons_append, splitAtPair, if_neg hc, ih, hp]
    rfl

theorem splitAtPair_eq_singleton (h : ¬ [a, b] <:+: xs) : splitAtPair a b xs = [xs] := by
  fun_induction splitAtPair a b xs with
  | case1 => rfl
  | case2 c => rfl
  | case3 c d cs hc ih =>
    obtain ⟨rfl, rfl⟩ := hc
    exact absurd (List.prefix_append [c, d] cs).isInfix h
  | case4 c d cs hc ih =>
    rw [ih fun hi => h (hi.trans (List.suffix_cons c _).isInfix)]
    rfl

theorem prefix_of_splitAtPair {p : List Char} {ps : List (List Char)}
    (h : splitAtPair a b xs = p :: ps) : p <+: xs := by
  fun_induction splitAtPair a b xs generalizing p ps with
  | case1 => simp [(List.cons.inj h).1.symm]
  | case2 c => simp [(List.cons.inj h).1.symm]
  | case3 c d cs hc ih => simp [(List.cons.inj h).1.symm]
  | case4 c d cs hc ih =>
    obtain ⟨q, qs, hq⟩ := List.exists_cons_of_ne_nil (splitAtPair_ne_nil a b (d :: cs))
    rw [hq] at h
    rw [← (List.cons.inj h).1, List.cons_prefix_cons]
    exact ⟨rfl, ih hq⟩

theorem not_infix_of_mem_splitAtPair {p : List Char} (h : p ∈ splitAtPair a b xs) :
    ¬ [a, b] <:+: p := by
  fun_induction splitAtPair a b xs generalizing p with
  | case1 => simp [List.mem_singleton.mp h]
  | case2 c =>
    rw [List.mem_singleton.mp h]
    exact fun hi => absurd hi.length_le (by simp)
  | case3 c d cs hc ih =>
    rcases List.mem_cons.mp h with rfl | h
    · simp
    · exact ih h
  | case4 c d cs hc ih =>
    obtain ⟨q, qs, hq⟩ := List.exists_cons_of_ne_nil (splitAtPair_ne_nil a b (d :: cs))
    rw [hq] at h
    rcases List.mem_cons.mp h with rfl | h
    · rw [List.infix_cons_iff, List.cons_prefix_cons]
      rintro (⟨rfl, hb⟩ | hi)
      · obtain ⟨hd, -⟩ := List.cons_prefix_cons.mp (hb.trans (prefix_of_splitAtPair hq))
        exact hc ⟨rfl, hd.symm⟩
      · exact ih (by rw [hq]; exact List.mem_cons_self) hi
    · exact ih (by rw [hq]; exact List.mem_cons_of_mem _ h)

theorem holds_pair_eq_false_iff {s : String} :
    holds s "<>" = false ↔ ¬ ['<', '>'] <:+: s.toList :=
  holds_eq_false_iff

theorem pairPieces_append (s t : String) :
    pairPieces '<' '>' (s ++ "<>" ++ t) = pairPieces '<' '>' s ++ pairPieces '<' '>' t := by
  rw [pairPieces, String.toList_append, String.toList_append, List.append_assoc]
  exact (congrArg _ (splitAtPair_append (by decide) s.toList t.toList)).trans List.map_append

theorem pairPieces_eq_singleton {s : String} (h : holds s "<>" = false) :
    pairPieces '<' '>' s = [s] := by
  rw [pairPieces, splitAtPair_eq_singleton (holds_pair_eq_false_iff.mp h)]
  simp

theorem pairPieces_join {ts : List String} (hn : ts ≠ []) (h : ∀ t ∈ ts, holds t "<>" = false) :
    pairPieces '<' '>' (join "<>" ts) = ts := by
  rw [flatMap_of_join pairPieces_append hn,
    List.flatMap_congr fun t ht => pairPieces_eq_singleton (h t ht), List.flatMap_singleton']

theorem not_holds_of_mem_pairPieces {s p : String} (h : p ∈ pairPieces '<' '>' s) :
    holds p "<>" = false := by
  obtain ⟨q, hq, rfl⟩ := List.mem_map.mp h
  rw [holds_pair_eq_false_iff, String.toList_ofList]
  exact not_infix_of_mem_splitAtPair hq

end Pairs

section Trimming

theorem trimChars_eq (cs : List Char) : trimChars cs = (cs.dropWhile isBlank).rdropWhile isBlank :=
  rfl

theorem isInfix_trimChars (cs : List Char) : trimChars cs <:+: cs :=
  List.IsInfix.trans ⟨[], List.rdropWhile_prefix isBlank _⟩ (List.dropWhile_suffix isBlank).isInfix

theorem trimChars_trimChars (cs : List Char) : trimChars (trimChars cs) = trimChars cs := by
  -- nothing is left to take off at the front, and the front stays when the back is cleared
  have hf : (trimChars cs).dropWhile isBlank = trimChars cs := by
    cases ht : trimChars cs with
    | nil => rfl
    | cons x ys =>
      obtain ⟨zs, hz⟩ := List.rdropWhile_prefix isBlank (l := cs.dropWhile isBlank)
      rw [← trimChars_eq, ht] at hz
      have hne : cs.dropWhile isBlank ≠ [] := by
        rw [← hz]
        exact List.cons_ne_nil x _
      have hx := List.head_dropWhile_not isBlank hne
      simp only [← hz, List.cons_append, List.head_cons] at hx
      exact List.dropWhile_cons_of_neg (by simp [hx])
  rw [trimChars_eq (trimChars cs), hf, trimChars_eq, List.rdropWhile_idempotent]

theorem trimChars_eq_self {cs : List Char} (h : ∀ c ∈ cs, isBlank c = false) :
    trimChars cs = cs := by
  have hd : cs.dropWhile isBlank = cs :=
    List.dropWhile_eq_self_iff.mpr fun _ => by simp [h _ (List.getElem_mem _)]
  rw [trimChars_eq, hd, List.rdropWhile_eq_self_iff.mpr fun _ => by simp [h _ (List.getLast_mem _)]]

theorem holds_trim {s word : String} (h : holds s word = false) : holds (trim s) word = false := by
  rw [holds_eq_false_iff] at h ⊢
  rw [trim, String.toList_ofList]
  exact fun hi => h (hi.trans (isInfix_trimChars s.toList))

theorem mem_of_mem_trim {s : String} {c : Char} (h : c ∈ (trim s).toList) : c ∈ s.toList := by
  rw [trim, String.toList_ofList] at h
  exact (isInfix_trimChars s.toList).subset h

theorem trim_trim (s : String) : trim (trim s) = trim s := by
  rw [trim, trim, String.toList_ofList, trimChars_trimChars]

theorem trim_eq_empty_iff {s : String} : trim s = "" ↔ allBlank s := by
  rw [trim, String.ofList_eq_empty_iff, trimChars_eq, List.rdropWhile_eq_nil_iff, allBlank,
    List.all_eq_true]
  constructor
  · intro h
    refine List.dropWhile_eq_nil_iff.mp (not_ne_iff.mp fun hn => ?_)
    have hb := h _ (List.head_mem hn)
    rw [List.head_dropWhile_not isBlank hn] at hb
    cases hb
  · intro h x hx
    exact h x ((List.dropWhile_suffix isBlank).subset hx)

theorem ne_empty_of_not_allBlank {s : String} (h : allBlank s = false) : s ≠ "" := by
  rintro rfl
  cases h

end Trimming

end RuleTables.Text
