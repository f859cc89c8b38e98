import RuleTables.Expr.Draft
import RuleTables.Proofs.Columns
import RuleTables.Proofs.RecordLocality
import RuleTables.Proofs.RowGroups

namespace RuleTables

namespace Text

section Pieces

variable {s : String} {ts : List String}

def trimmedPieces (s : String) : List String :=
  (pieces ',' s).map trim

theorem length_trimmedPieces (s : String) :
    (trimmedPieces s).length = s.toList.count ',' + 1 := by
  rw [trimmedPieces, List.length_map, length_pieces]

theorem trimmedPieces_eq_singleton (h : ',' ∉ s.toList) : trimmedPieces s = [trim s] := by
  rw [trimmedPieces, pieces_eq_singleton h, List.map_singleton]

theorem not_mem_of_mem_trimmedPieces {t : String} (h : t ∈ trimmedPieces s) : ',' ∉ t.toList := by
  obtain ⟨p, hp, rfl⟩ := List.mem_map.mp h
  exact fun hc => not_mem_of_mem_pieces hp (mem_of_mem_trim hc)

theorem trim_of_mem_trimmedPieces {t : String} (h : t ∈ trimmedPieces s) : trim t = t := by
  obtain ⟨p, -, rfl⟩ := List.mem_map.mp h
  exact trim_trim p

theorem trimmedPieces_append_comma (s t : String) :
    trimmedPieces (s ++ "," ++ t) = trimmedPieces s ++ trimmedPieces t := by
  rw [trimmedPieces, pieces_append_comma, List.map_append]
  rfl

theorem trimmedPieces_blank_append (s : String) : trimmedPieces (" " ++ s) = trimmedPieces s := by
  obtain ⟨p, ps, hp⟩ := List.exists_cons_of_length_eq_add_one (length_splitAt ',' s.toList)
  have hs : splitAt ',' (" " ++ s).toList = (' ' :: p) :: ps := by
    rw [String.toList_append]
    change consHead ' ' (splitAt ',' s.toList) = _
    rw [hp]
    rfl
  have ht : trim (String.ofList (' ' :: p)) = trim (String.ofList p) := by
    rw [trim, trim, String.toList_ofList, String.toList_ofList]
    rfl
  rw [trimmedPieces, trimmedPieces, pieces, pieces, hs, hp]
  simp only [List.map_cons, ht]

theorem trimmedPieces_append_comma_blank (s t : String) :
    trimmedPieces (s ++ ", " ++ t) = trimmedPieces s ++ trimmedPieces t := by
  have hc : s ++ ", " ++ t = s ++ "," ++ (" " ++ t) := by
    simp [← String.toList_inj]
  rw [hc, trimmedPieces_append_comma, trimmedPieces_blank_append]

theorem length_flatMap_trimmedPieces (ts : List String) :
    (ts.flatMap trimmedPieces).length =
      ts.length + (ts.flatMap (·.toList)).count ',' := by
  induction ts with
  | nil => rfl
  | cons t ts ih =>
    rw [List.flatMap_cons, List.length_append, ih, length_trimmedPieces, List.flatMap_cons,
      List.count_append, List.length_cons]
    omega

theorem flatMap_trimmedPieces_eq_map_iff :
    ts.flatMap trimmedPieces = ts.map trim ↔ ∀ t ∈ ts, ',' ∉ t.toList := by
  constructor
  · intro h t ht hc
    have hl := length_flatMap_trimmedPieces ts
    rw [h, List.length_map, Nat.left_eq_add, List.count_eq_zero] at hl
    exact hl (List.mem_flatMap.mpr ⟨t, ht, hc⟩)
  · intro h
    rw [← List.flatMap_singleton' (ts.map trim), List.flatMap_map]
    exact List.flatMap_congr fun t ht => trimmedPieces_eq_singleton (h t ht)

end Pieces

end Text

namespace Operator

variable {k : Kind} {s : String}

theorem toList_inQuotes (s : String) : (inQuotes s).toList = '"' :: (s.toList ++ ['"']) := by
  rw [inQuotes, String.toList_append, String.toList_append]
  rfl

theorem trim_inQuotes (s : String) : Text.trim (inQuotes s) = inQuotes s := by
  rw [Text.trim, toList_inQuotes, Text.trimChars_eq, List.dropWhile_cons_of_neg (by decide),
    ← List.cons_append, List.rdropWhile_concat_neg _ _ _ (by decide), List.cons_append,
    ← toList_inQuotes, String.ofList_toList]

theorem trimmedPieces_literal (k : Kind) (hc : ',' ∉ s.toList) (ht : Text.trim s = s) :
    Text.trimmedPieces (literal k s) = [literal k s] := by
  rw [literal]
  split
  · rw [Text.trimmedPieces_eq_singleton, trim_inQuotes]
    rw [toList_inQuotes]
    simp [hc]
  · rw [Text.trimmedPieces_eq_singleton hc, ht]

theorem items_eq (k : Kind) (s : String) :
    items k s = Text.join ", " ((Text.trimmedPieces s).map (literal k)) := by
  rw [items, Text.trimmedPieces, List.map_map]
  rfl

end Operator

namespace Json

/-- The items that a list of values is cut into. -/
def listItems (vs : List Json) : List String :=
  (vs.map valueText).flatMap Text.trimmedPieces

/-- The items as a cell. The first of the values decides whether they are put in quotes. -/
def listCell (v : Json) (vs : List Json) : String :=
  Text.join ", " ((listItems (v :: vs)).map (Operator.literal (Kind.infer v.valueText)))

variable {vs : List Json}

theorem length_listItems (vs : List Json) :
    (listItems vs).length = vs.length + (vs.flatMap (·.valueText.toList)).count ',' := by
  rw [listItems, Text.length_flatMap_trimmedPieces, List.length_map, List.flatMap_map]

theorem listItems_ne_nil (v : Json) (vs : List Json) : listItems (v :: vs) ≠ [] := by
  rw [← List.length_pos_iff, length_listItems, List.length_cons]
  omega

theorem listItems_eq_map_iff : listItems vs = vs.map (Text.trim ·.valueText) ↔
    ∀ v ∈ vs, ',' ∉ v.valueText.toList := by
  have hm : vs.map (Text.trim ·.valueText) = (vs.map valueText).map Text.trim := by
    rw [List.map_map]
    rfl
  rw [listItems, hm, Text.flatMap_trimmedPieces_eq_map_iff, List.forall_mem_map]

theorem trimmedPieces_literal_of_mem_listItems {t : String} (h : t ∈ listItems vs) (k : Kind) :
    Text.trimmedPieces (Operator.literal k t) = [Operator.literal k t] := by
  obtain ⟨s, -, hs⟩ := List.mem_flatMap.mp h
  exact Operator.trimmedPieces_literal k (Text.not_mem_of_mem_trimmedPieces hs)
    (Text.trim_of_mem_trimmedPieces hs)

theorem trimmedPieces_listCell (v : Json) (vs : List Json) : Text.trimmedPieces (listCell v vs) =
    (listItems (v :: vs)).map (Operator.literal (Kind.infer v.valueText)) := by
  have hn : (listItems (v :: vs)).map (Operator.literal (Kind.infer v.valueText)) ≠ [] :=
    List.map_eq_nil_iff.not.mpr (listItems_ne_nil v vs)
  rw [listCell, Text.flatMap_of_join Text.trimmedPieces_append_comma_blank hn, List.flatMap_map,
    List.flatMap_congr fun t ht => trimmedPieces_literal_of_mem_listItems ht _]
  exact List.map_eq_flatMap.symm

end Json

theorem Condition.cell_inList (p : String) (v : Json) (vs : List Json) :
    (inList p (v :: vs)).cell = Json.listCell v vs := by
  have hj : Text.trimmedPieces (Text.join "," ((v :: vs).map Json.valueText)) =
      Json.listItems (v :: vs) :=
    Text.flatMap_of_join Text.trimmedPieces_append_comma (List.map_eq_nil_iff.not.mpr nofun)
  have hc : (inList p (v :: vs)).cell =
      Operator.items (inList p (v :: vs)).kind (inList p (v :: vs)).value := rfl
  have hv : (inList p (v :: vs)).value = Text.join "," ((v :: vs).map Json.valueText) := rfl
  have hk : (inList p (v :: vs)).kind = Kind.infer v.valueText := by
    rw [inList, of, List.map_cons, Option.getD_some]
  rw [hc, hk, hv, Operator.items_eq, hj, Json.listCell]

namespace Expr

variable {c : Condition}

theorem row_condition (columns outputs : List String) (c : Condition) :
    row columns outputs [condition c] =
      ⟨columns.eraseDups.map fun n => (n, if n = c.parameter then c.cell else ""), outputs⟩ := by
  have hc : ∀ n, cell [c] n = if n = c.parameter then c.cell else "" := fun n => by
    by_cases h : n = c.parameter
    · rw [if_pos h, cell, List.filter_cons_of_pos (by simpa using h.symm), List.filter_nil,
        List.map_singleton, Text.join, String.intercalate_singleton]
    · rw [if_neg h, cell_eq_empty]
      simpa using Ne.symm h
  simp only [row, foldl_addName, List.flatMap_singleton, leaves, hc]

theorem compileRows_condition (h : c.operator.isSome) (columns outputs : List String) :
    (condition c).compileRows columns outputs =
      .ok [⟨columns.eraseDups.map fun n => (n, if n = c.parameter then c.cell else ""), outputs⟩] := by
  have hc : (condition c).isComplete := h
  rw [compileRows_eq hc, ← row_condition]
  rfl

theorem compileOwnRows_condition (h : c.operator.isSome) (outputs : List String) :
    (condition c).compileOwnRows outputs = .ok [⟨[(c.parameter, c.cell)], outputs⟩] := by
  have hc : (condition c).isComplete := h
  have hp : parameterNames [condition c] = [c.parameter] := rfl
  rw [compileOwnRows_eq hc, hp]
  change Except.ok [row [c.parameter] outputs [condition c]] = _
  rw [row_condition, eraseDups_of_nodup (List.nodup_singleton _), List.map_singleton, if_pos rfl]

/-- A test for one of several values, put into a draft by itself. Its one row has the items of the
values in the cell of the parameter: what stands between the commas of the texts, in order, in
quotes just if the first value looks like text. Cut at its commas, the cell gives the same items.
There is one for each value and one more for each comma in the texts, so the items are the values
just if no text holds a comma. -/
theorem inList_rows_items (p : String) (v : Json) (vs : List Json) :
    (∀ columns outputs,
      (ofSteps [.add (condition (.inList p (v :: vs)))]).compileRows columns outputs =
        .ok [⟨columns.eraseDups.map fun n => (n, if n = p then v.listCell vs else ""), outputs⟩]) ∧
    (∀ outputs, (ofSteps [.add (condition (.inList p (v :: vs)))]).compileOwnRows outputs =
      .ok [⟨[(p, v.listCell vs)], outputs⟩]) ∧
    Text.trimmedPieces (v.listCell vs) =
      (Json.listItems (v :: vs)).map (Operator.literal (Kind.infer v.valueText)) ∧
    (Json.listItems (v :: vs)).length =
      (v :: vs).length + ((v :: vs).flatMap (·.valueText.toList)).count ',' ∧
    (Json.listItems (v :: vs) = (v :: vs).map (Text.trim ·.valueText) ↔
      ∀ w ∈ v :: vs, ',' ∉ w.valueText.toList) := by
  have ho : (Condition.inList p (v :: vs)).operator.isSome := rfl
  refine ⟨fun columns outputs => ?_, fun outputs => ?_, Json.trimmedPieces_listCell v vs,
    Json.length_listItems (v :: vs), Json.listItems_eq_map_iff⟩
  · rw [← Condition.cell_inList]
    exact compileRows_condition ho columns outputs
  · rw [← Condition.cell_inList]
    exact compileOwnRows_condition ho outputs

theorem parisTexas_cut :
    Kind.infer "Paris, Texas" = .string ∧
    (ofSteps [.add (condition (.inList "city" [.text "Paris, Texas", .text "Rome"]))]).compileOwnRows
      [] = .ok [⟨[("city", "\x22Paris\x22, \x22Texas\x22, \x22Rome\x22")], []⟩] ∧
    (Json.listItems [.text "Paris, Texas", .text "Rome"]).length = 3 ∧
    "\x22Paris\x22, \x22Texas\x22, \x22Rome\x22" ≠
      Text.join ", " (["Paris, Texas", "Rome"].map fun t => Operator.literal .string (Text.trim t)) :=
  ⟨by decide, rfl, by decide, by decide⟩

end Expr

end RuleTables
