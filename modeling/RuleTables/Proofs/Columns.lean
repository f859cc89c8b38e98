import Mathlib.Data.List.Induction
import Mathlib.Data.List.Nodup
import RuleTables.Proofs.RowGroups
import RuleTables.Table.Basic

namespace RuleTables

theorem Assoc.find?_map {α : Type} {names : List String} {name : String} (f : String → α)
    (h : name ∈ names) : find? name (names.map fun n => (n, f n)) = some (f name) := by
  induction names with
  | nil => cases h
  | cons n ns ih =>
    rw [List.map_cons, find?]
    by_cases hn : n = name
    · rw [if_pos hn, hn]
    · rw [if_neg hn]
      exact ih ((List.mem_cons.mp h).resolve_left (Ne.symm hn))

namespace Expr

section Names

variable {names : List String}

theorem eraseDups_concat (names : List String) (n : String) :
    (names ++ [n]).eraseDups = if n ∈ names then names.eraseDups else names.eraseDups ++ [n] := by
  rw [List.eraseDups_append]
  by_cases h : n ∈ names <;> simp [h, List.removeAll, List.eraseDups_cons]

theorem foldl_addName (names : List String) : names.foldl addName [] = names.eraseDups := by
  -- from the back: `addName` compares a name with all names before it
  induction names using List.reverseRecOn with
  | nil => rfl
  | append_singleton ns n ih =>
    rw [List.foldl_concat, ih, addName, eraseDups_concat]
    simp [List.mem_eraseDups]

theorem nodup_eraseDups (names : List String) : names.eraseDups.Nodup := by
  induction names using List.reverseRecOn with
  | nil => exact List.nodup_nil
  | append_singleton ns n ih =>
    rw [eraseDups_concat]
    split
    · exact ih
    · next h =>
      rw [← List.concat_eq_append]
      exact List.Nodup.concat (List.mem_eraseDups.not.mpr h) ih

theorem eraseDups_of_nodup (h : names.Nodup) : names.eraseDups = names := by
  induction names with
  | nil => rfl
  | cons n ns ih =>
    obtain ⟨hn, hs⟩ := List.nodup_cons.mp h
    have hf : (ns.filter fun m => !m == n) = ns := by
      refine List.filter_eq_self.mpr fun m hm => ?_
      have hne : m ≠ n := fun he => hn (he ▸ hm)
      simp [hne]
    rw [List.eraseDups_cons, hf, ih hs]

end Names

theorem mem_leaves_of_mem_rowGroups {e : Expr} {g : List Expr} {c : Condition}
    (hg : g ∈ e.rowGroups) (hc : c ∈ g.flatMap leaves) : c ∈ e.leaves := by
  obtain ⟨x, hx, hc⟩ := List.mem_flatMap.mp hc
  obtain rfl | ⟨ns, rfl, n, hn, rfl⟩ := mem_rowGroups hg hx
  · exact hc
  · rw [leaves, nodeLeaves_eq_flatMap]
    exact List.mem_flatMap.mpr ⟨n, hn, hc⟩

def namesIn (es : List Expr) : List String :=
  (es.flatMap leaves).map (·.parameter)

theorem mem_namesIn {es : List Expr} {name : String} :
    name ∈ namesIn es ↔ ∃ c ∈ es.flatMap leaves, c.parameter = name :=
  List.mem_map

theorem mem_namesIn_singleton {e : Expr} {name : String} :
    name ∈ namesIn [e] ↔ ∃ c ∈ e.leaves, c.parameter = name := by
  rw [mem_namesIn, List.flatMap_singleton]

theorem parameterNames_eq (es : List Expr) : parameterNames es = (namesIn es).eraseDups :=
  foldl_addName _

section Cells

variable {cs : List Condition} {column : String}

theorem cell_eq_empty (h : ∀ c ∈ cs, c.parameter ≠ column) : cell cs column = "" := by
  have hf : (cs.filter fun c => c.parameter = column) = [] :=
    List.filter_eq_nil_iff.mpr fun c hc => by simpa using h c hc
  rw [cell, hf]
  rfl

variable {columns outputs : List String} {g : List Expr}

theorem entries_row (columns outputs : List String) (g : List Expr) :
    (row columns outputs g).entries =
      columns.eraseDups.map fun c => (c, cell (g.flatMap leaves) c) := by
  rw [row, foldl_addName]

theorem columns_row (columns outputs : List String) (g : List Expr) :
    (row columns outputs g).entries.map (·.1) = columns.eraseDups := by
  rw [entries_row, List.map_map]
  exact List.map_id _

theorem find?_row (outputs : List String) (g : List Expr) (h : column ∈ columns) :
    Assoc.find? column (row columns outputs g).entries =
      some (cell (g.flatMap leaves) column) := by
  rw [entries_row]
  exact Assoc.find?_map _ (List.mem_eraseDups.mpr h)

end Cells

end Expr

theorem Table.columnsOf_eq (es : List Expr) (l : TableLayout) :
    columnsOf es l = (Expr.namesIn es ++ l.computed.map (·.name)).eraseDups := by
  rw [columnsOf, Expr.parameterNames, ← List.foldl_append, Expr.foldl_addName]
  rfl

end RuleTables
