import RuleTables.Proofs.Identifiers
import RuleTables.Proofs.Refusal

namespace RuleTables

namespace Document

def endsInDigit (id : String) : Bool := id.toList.getLast?.any (·.isDigit)

theorem endsInDigit_append_toString (s : String) (n : Nat) : endsInDigit (s ++ toString n) := by
  have hl : (toString n).toList = Nat.toDigits 10 n := Nat.toList_repr
  have hn : Nat.toDigits 10 n ≠ [] := Nat.toDigits_ne_nil
  rw [endsInDigit, String.toList_append, hl, List.getLast?_append_of_ne_nil _ hn,
    List.getLast?_eq_getLast_of_ne_nil hn, Option.any_some]
  exact Nat.isDigit_of_mem_toDigits (by decide) (by decide) (List.getLast_mem hn)

theorem endsInDigit_idOf_one (name : String) (i : Nat) : endsInDigit (idOf (name, [i])) :=
  endsInDigit_append_toString (name ++ "_") i

theorem endsInDigit_idOf_two (name : String) (r i : Nat) : endsInDigit (idOf (name, [r, i])) :=
  endsInDigit_append_toString (name ++ "_" ++ toString r ++ "_") i

theorem endsInDigit_of_mem_partLabels {expression id : String} {start inputs outputs rules : Nat}
    (h : id ∈ (partLabels expression start inputs outputs rules).map idOf) : endsInDigit id := by
  have labels : ∀ x ∈ partLabels expression start inputs outputs rules, endsInDigit (idOf x) := by
    refine List.forall_mem_append.mpr ⟨?_, List.forall_mem_flatMap.mpr fun r _ => ?_⟩
    · exact forall_mem_columnLabels (endsInDigit_idOf_one _) (endsInDigit_idOf_one _)
        (endsInDigit_idOf_one _)
    · exact forall_mem_ruleLabels (endsInDigit_idOf_one _ r) (endsInDigit_idOf_two _ r)
        (endsInDigit_idOf_two _ r)
  obtain ⟨x, hx, rfl⟩ := List.mem_map.mp h
  exact labels x hx

end Document

namespace DrawnTable

open Document

variable {t : DrawnTable}

theorem partIds_document (h : ∀ r ∈ t.rules, t.Fits r) : t.document.partIds =
    (partLabels "inputExpression" 0 t.inputs.length t.outputs.length t.rules.length).map idOf := by
  refine partIds_eq rfl rfl rfl (fun _ _ => rfl) (fun _ _ => rfl) fun k r hr => ?_
  obtain ⟨hi, ho⟩ := h r hr
  rw [ruleDocument, rule_ids, hi, ho]

theorem getLast?_table (name : String) : (name ++ "Table").toList.getLast? = some 'e' := by
  rw [String.toList_append, List.getLast?_append_of_ne_nil _ (by decide)]
  rfl

theorem table_ne (name : String) : name ++ "Table" ≠ name := fun h => by
  have hl := congrArg String.length h
  have ht : "Table".length = 5 := rfl
  rw [String.length_append] at hl
  omega

theorem table_ne_definitions (name : String) : "definitions" ≠ name ++ "Table" := fun h => by
  have hl := getLast?_table name
  rw [← h] at hl
  exact absurd hl (by decide)

theorem nodup_other_ids (h : ∀ r ∈ t.rules, t.Fits r) :
    ("definitions" :: (t.decisionName ++ "Table") :: t.document.partIds).Nodup := by
  have digit : ∀ id ∈ t.document.partIds, endsInDigit id := by
    rw [partIds_document h]
    exact fun id => endsInDigit_of_mem_partLabels
  have hd : "definitions" ∉ t.document.partIds := fun hm => absurd (digit _ hm) (by decide)
  have ht : t.decisionName ++ "Table" ∉ t.document.partIds := fun hm => by
    have hl := digit _ hm
    rw [endsInDigit, getLast?_table] at hl
    exact absurd hl (by decide)
  refine List.nodup_cons.mpr ⟨?_, List.nodup_cons.mpr ⟨ht, ?_⟩⟩
  · rw [List.mem_cons, not_or]
    exact ⟨table_ne_definitions t.decisionName, hd⟩
  · rw [partIds_document h]
    exact nodup_partLabels_ids (by decide) (by decide)

theorem nodup_ids_document_iff (h : ∀ r ∈ t.rules, t.Fits r) : t.document.ids.Nodup ↔
    t.decisionName ≠ "definitions" ∧ t.decisionName ∉ t.document.partIds := by
  obtain ⟨hd, hr⟩ := List.nodup_cons.mp (nodup_other_ids h)
  rw [ids_eq]
  change ("definitions" :: t.decisionName :: (t.decisionName ++ "Table") ::
    t.document.partIds).Nodup ↔ _
  constructor
  · intro hn
    obtain ⟨hd, hn⟩ := List.nodup_cons.mp hn
    obtain ⟨hp, -⟩ := List.nodup_cons.mp hn
    exact ⟨fun he => hd (he ▸ List.mem_cons_self), fun hm => hp (List.mem_cons_of_mem _ hm)⟩
  · rintro ⟨hn, hp⟩
    have ht := (table_ne t.decisionName).symm
    refine List.nodup_cons.mpr ⟨?_, List.nodup_cons.mpr ⟨?_, hr⟩⟩
    · exact List.not_mem_cons_of_ne_of_not_mem hn.symm hd
    · exact List.not_mem_cons_of_ne_of_not_mem ht hp

end DrawnTable

namespace Generation

variable {t : DrawnTable} {pretty : Bool} {x : String}

/-- An accepted table has one document, whose decision is identified by its name. No other
identifier is used twice, and so all of them are different just when the decision is named like
neither the definitions nor any part of the table. -/
theorem drawn_ids_nodup_iff (h : (ofDrawn t pretty).answer = .ok x) :
    ∃ d : Document, (∀ k : Document, k.render pretty = x ↔ k = d) ∧
      d.ids = ["definitions", t.decisionName, t.decisionName ++ "Table"] ++ d.partIds ∧
      ("definitions" :: (t.decisionName ++ "Table") :: d.partIds).Nodup ∧
      (d.ids.Nodup ↔ t.decisionName ≠ "definitions" ∧ t.decisionName ∉ d.partIds) := by
  rw [answer_ofDrawn] at h
  obtain ⟨⟨-, hc, -⟩, hx⟩ := DrawnTable.text_eq_ok_iff.mp h
  have hf := DrawnTable.countFault?_eq_none_iff.mp hc
  exact ⟨t.document, Document.render_eq_iff hx, Document.ids_eq _, DrawnTable.nodup_other_ids hf,
    DrawnTable.nodup_ids_document_iff hf⟩

def namedTable (name : String) : DrawnTable :=
  ⟨name, [⟨"Class", "class", "string"⟩], [], [⟨["\x22vip\x22"], []⟩], .first⟩

theorem grade_ids_nodup : ∃ x, (ofDrawn (namedTable "grade") true).answer = .ok x ∧
    ∃ d : Document, d.render true = x ∧ d.ids.Nodup ∧ d.ids =
      ["definitions", "grade", "gradeTable", "input_0", "inputExpression_0", "rule_0",
        "inputEntry_0_0"] := by
  have hx : ∃ x, (ofDrawn (namedTable "grade") true).answer = .ok x := ⟨_, rfl⟩
  obtain ⟨x, hx⟩ := hx
  obtain ⟨d, hd, -, -, hn⟩ := drawn_ids_nodup_iff hx
  have hdoc : d = (namedTable "grade").document := ((hd _).mp (Except.ok.inj hx)).symm
  subst hdoc
  exact ⟨x, hx, _, (hd _).mpr rfl, hn.mpr ⟨by decide, by decide⟩, by decide⟩

/-- The decision and the definitions have the same identifier if they have the same name. -/
theorem definitions_ids_repeat : ∃ x, (ofDrawn (namedTable "definitions") true).answer = .ok x ∧
    ∀ d : Document, d.render true = x → ¬ d.ids.Nodup := by
  refine ⟨_, rfl, fun d hd hn => ?_⟩
  obtain rfl := Document.render_inj hd
  exact absurd hn (by decide)

end Generation

end RuleTables
