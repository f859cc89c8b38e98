import RuleTables.Expr.Record
import RuleTables.Proofs.Separation

namespace RuleTables.FlatRecord

variable {r : FlatRecord} {s : String}

/-- No comma stands outside the value. -/
def isApart (r : FlatRecord) : Bool :=
  [r.connective, r.openMark, r.parameter, r.symbol, r.closeMark].all (!·.toList.contains ',')

def trimmed (r : FlatRecord) : FlatRecord :=
  { r with
    connective := Text.trim r.connective
    parameter := Text.trim r.parameter
    symbol := Text.trim r.symbol }

/-- No field holds the separator of records. -/
def isWhole (r : FlatRecord) : Bool :=
  [r.connective, r.openMark, r.parameter, r.symbol, r.value, r.closeMark].all
    (!Text.holds · "<>")

theorem isApart_iff : r.isApart ↔
    ∀ s ∈ [r.connective, r.openMark, r.parameter, r.symbol, r.closeMark], ',' ∉ s.toList := by
  simp [isApart]

theorem trimmed_eq_self_iff :
    r.trimmed = r ↔ ∀ s ∈ [r.connective, r.parameter, r.symbol], Text.trim s = s := by
  obtain ⟨connective, openMark, parameter, symbol, value, closeMark⟩ := r
  simp [trimmed]

theorem isApart_trimmed (h : r.isApart) : r.trimmed.isApart := by
  have ht {s : String} (hs : ',' ∉ s.toList) : ',' ∉ (Text.trim s).toList :=
    fun hm => hs (Text.mem_of_mem_trim hm)
  rw [isApart_iff] at h ⊢
  simp only [List.forall_mem_cons] at h ⊢
  obtain ⟨hc, ho, hp, hy, hk⟩ := h
  exact ⟨ht hc, ho, ht hp, ht hy, hk⟩

theorem trimmed_trimmed (r : FlatRecord) : r.trimmed.trimmed = r.trimmed := by
  simp only [trimmed, Text.trim_trim]

theorem toText_eq (r : FlatRecord) : r.toText = r.connective ++ "," ++ (r.openMark ++ "," ++
    (r.parameter ++ "," ++ (r.symbol ++ "," ++ (r.value ++ "," ++ r.closeMark)))) := by
  simp [toText, Text.join]

theorem parse_of_pieces {c o p y k : String} {vs : List String} (hv : vs ≠ [])
    (h : Text.pieces ',' s = c :: o :: p :: y :: (vs ++ [k])) :
    parse s = some ⟨Text.trim c, o, Text.trim p, Text.trim y, Text.join "," vs, k⟩ := by
  obtain ⟨v, us, rfl⟩ := List.exists_cons_of_ne_nil hv
  obtain ⟨w, ws, hw⟩ := List.exists_cons_of_ne_nil (List.append_ne_nil_of_right_ne_nil us
    (List.cons_ne_nil k []))
  rw [parse, h, List.cons_append, hw]
  simp only [← hw, ← List.cons_append, List.dropLast_concat, List.getLastD_concat]

theorem pieces_toText (h : r.isApart) : Text.pieces ',' r.toText =
    r.connective :: r.openMark :: r.parameter :: r.symbol ::
      (Text.pieces ',' r.value ++ [r.closeMark]) := by
  rw [isApart_iff] at h
  simp only [List.forall_mem_cons] at h
  obtain ⟨hc, ho, hp, hy, hk, -⟩ := h
  rw [toText_eq, Text.pieces_append_comma, Text.pieces_append_comma, Text.pieces_append_comma,
    Text.pieces_append_comma, Text.pieces_append_comma, Text.pieces_eq_singleton hc,
    Text.pieces_eq_singleton ho, Text.pieces_eq_singleton hp, Text.pieces_eq_singleton hy,
    Text.pieces_eq_singleton hk]
  rfl

theorem parse_toText (h : r.isApart) : parse r.toText = some r.trimmed := by
  rw [parse_of_pieces (Text.pieces_ne_nil ',' r.value) (pieces_toText h), Text.join_pieces]
  rfl

theorem pieces_of_parse (h : parse s = some r) : ∃ c o p y k vs, vs ≠ [] ∧
    Text.pieces ',' s = c :: o :: p :: y :: (vs ++ [k]) ∧
    r = ⟨Text.trim c, o, Text.trim p, Text.trim y, Text.join "," vs, k⟩ := by
  rw [parse] at h
  split at h
  · next c o p y v w ws hs =>
    have hl : (v :: w :: ws).dropLast ++ [(v :: w :: ws).getLastD ""] = v :: w :: ws :=
      List.dropLast_append_getLast (List.cons_ne_nil v (w :: ws))
    rw [← hl] at hs
    exact ⟨c, o, p, y, _, _, List.cons_ne_nil v _, hs, (Option.some.inj h).symm⟩
  · cases h

theorem toText_of_pieces {c o p y k : String} {vs : List String} (hv : vs ≠ [])
    (h : Text.pieces ',' s = c :: o :: p :: y :: (vs ++ [k])) :
    toText ⟨c, o, p, y, Text.join "," vs, k⟩ = s := by
  obtain ⟨t, ts, hts⟩ := List.exists_cons_of_ne_nil (List.append_ne_nil_of_left_ne_nil hv [k])
  have hj : Text.join "," (t :: ts) = Text.join "," vs ++ "," ++ k := by
    rw [← hts, Text.join, String.intercalate_append_of_ne_nil hv (List.cons_ne_nil k []),
      String.intercalate_singleton]
    rfl
  have hs := Text.join_pieces s
  rw [h, hts, Text.join] at hs
  rw [toText_eq, ← hj, ← hs]
  simp only [Text.join, String.intercalate_cons_cons]

theorem isApart_of_pieces {c o p y k : String} {vs : List String}
    (h : Text.pieces ',' s = c :: o :: p :: y :: (vs ++ [k])) :
    isApart ⟨c, o, p, y, Text.join "," vs, k⟩ := by
  have hm : ∀ t ∈ [c, o, p, y, k], ',' ∉ t.toList := by
    refine fun t ht => Text.not_mem_of_mem_pieces (s := s) ?_
    rw [h]
    simp only [List.mem_cons, List.mem_append] at ht ⊢
    tauto
  exact isApart_iff.mpr hm

theorem exists_toText_of_parse (h : parse s = some r) :
    ∃ q : FlatRecord, q.isApart ∧ q.toText = s ∧ q.trimmed = r := by
  obtain ⟨c, o, p, y, k, vs, hv, hs, rfl⟩ := pieces_of_parse h
  exact ⟨⟨c, o, p, y, Text.join "," vs, k⟩, isApart_of_pieces hs, toText_of_pieces hv hs, rfl⟩

/-- A record comes back from its text just when none of its fields but the value holds a comma and
its names have no blanks around them. -/
theorem parse_toText_eq_some_iff (r : FlatRecord) : parse r.toText = some r ↔
    (∀ s ∈ [r.connective, r.openMark, r.parameter, r.symbol, r.closeMark], ',' ∉ s.toList) ∧
      ∀ s ∈ [r.connective, r.parameter, r.symbol], Text.trim s = s := by
  rw [← isApart_iff, ← trimmed_eq_self_iff]
  constructor
  · intro h
    -- whatever the fields of `r` hold, what is read from a text is trimmed and apart
    obtain ⟨q, hq, -, rfl⟩ := exists_toText_of_parse h
    exact ⟨isApart_trimmed hq, trimmed_trimmed q⟩
  · rintro ⟨ha, ht⟩
    rw [parse_toText ha, ht]

theorem holds_toText (r : FlatRecord) : Text.holds r.toText "<>" = !r.isWhole := by
  have hw : ',' ∉ "<>".toList := by decide
  rw [toText_eq, Text.holds_append_comma hw, Text.holds_append_comma hw,
    Text.holds_append_comma hw, Text.holds_append_comma hw, Text.holds_append_comma hw]
  simp [isWhole]

theorem ofText_join {rs : List FlatRecord} (hn : rs ≠ [])
    (h : ∀ r ∈ rs, r.isApart ∧ r.trimmed = r ∧ r.isWhole) :
    ofText (Text.join "<>" (rs.map toText)) = rs := by
  have hw : ∀ t ∈ rs.map toText, Text.holds t "<>" = false := by
    intro t ht
    obtain ⟨r, hr, rfl⟩ := List.mem_map.mp ht
    rw [holds_toText, (h r hr).2.2]
    rfl
  have hp : ∀ r ∈ rs, (parse ∘ toText) r = some r := by
    intro r hr
    obtain ⟨ha, ht, -⟩ := h r hr
    rw [Function.comp_apply, parse_toText ha, ht]
  rw [ofText, Text.pairPieces_join (List.map_eq_nil_iff.not.mpr hn) hw, List.filterMap_map,
    List.filterMap_congr hp]
  exact List.filterMap_some

theorem not_allBlank_join {rs : List FlatRecord} (hn : rs ≠ []) :
    Text.allBlank (Text.join "<>" (rs.map toText)) = false := by
  obtain ⟨r, rs, rfl⟩ := List.exists_cons_of_ne_nil hn
  have hr : ',' ∈ r.toText.toList := by simp [toText_eq]
  have hj : ',' ∈ (Text.join "<>" ((r :: rs).map toText)).toList := by
    cases rs with
    | nil => simpa [Text.join] using hr
    | cons q qs => simp [Text.join, hr]
  exact List.all_eq_false.mpr ⟨',', hj, by decide⟩

end RuleTables.FlatRecord
