import RuleTables.Document.Generation
import RuleTables.Proofs.Writable

namespace RuleTables

namespace Xml

theorem refuses_append {s t : String} : Refuses (s ++ t) ↔ Refuses s ∨ Refuses t := by
  simp only [Refuses, String.toList_append, List.mem_append, or_and_right, exists_or]

end Xml

namespace DrawnTable

open Xml

def Fits (t : DrawnTable) (r : DrawnRule) : Prop :=
  r.inputs.length = t.inputs.length ∧ r.outputs.length = t.outputs.length

def written (t : DrawnTable) : List String :=
  [t.decisionName] ++ t.inputs.flatMap (fun i => [i.label, i.typeRef, i.expression]) ++
    t.outputs.flatMap (fun o => [o.label, o.name, o.typeRef]) ++
    t.rules.flatMap fun r => r.inputs ++ r.outputs

/-- A rule that does not fit, at its place among the rules. A missing or surplus input is told of
before an output. -/
inductive Misfit (t : DrawnTable) (place : Nat) (r : DrawnRule) : Fault → Prop
  | inputs (h : r.inputs.length ≠ t.inputs.length) :
    Misfit t place r (.inputCount place r.inputs.length t.inputs.length)
  | outputs (hi : r.inputs.length = t.inputs.length) (ho : r.outputs.length ≠ t.outputs.length) :
    Misfit t place r (.outputCount place r.outputs.length t.outputs.length)

/-- The cause for which a table is not written, where earlier causes go first. -/
inductive Rejects (t : DrawnTable) : Fault → Prop
  | blank (h : Text.allBlank t.decisionName) : Rejects t .blankDecisionName
  | misfit {before after : List DrawnRule} {r : DrawnRule} {f : Fault}
    (hn : Text.allBlank t.decisionName = false) (hr : t.rules = before ++ r :: after)
    (hb : ∀ q ∈ before, t.Fits q) (h : t.Misfit before.length r f) : Rejects t f
  | name (hn : Text.allBlank t.decisionName = false) (hr : ∀ r ∈ t.rules, t.Fits r)
    (h : Refuses t.decisionName) : Rejects t .unwritableName
  | cell (hn : Text.allBlank t.decisionName = false) (hr : ∀ r ∈ t.rules, t.Fits r)
    (hw : ¬ Refuses t.decisionName) (h : ∃ s ∈ t.written, Refuses s) : Rejects t .unwritableCell

section Counts

variable {t : DrawnTable} {f : Fault}

def misfit? (t : DrawnTable) (place : Nat) (r : DrawnRule) : Option Fault :=
  if r.inputs.length ≠ t.inputs.length then
    some (.inputCount place r.inputs.length t.inputs.length)
  else if r.outputs.length ≠ t.outputs.length then
    some (.outputCount place r.outputs.length t.outputs.length)
  else none

theorem misfit?_eq_none_iff {place : Nat} {r : DrawnRule} :
    t.misfit? place r = none ↔ t.Fits r := by
  unfold misfit? Fits
  by_cases hi : r.inputs.length = t.inputs.length <;>
    by_cases ho : r.outputs.length = t.outputs.length <;> simp [hi, ho]

theorem misfit?_eq_some_iff {place : Nat} {r : DrawnRule} :
    t.misfit? place r = some f ↔ t.Misfit place r f := by
  constructor
  · intro h
    unfold misfit? at h
    split at h
    · next hi => exact Option.some.inj h ▸ .inputs hi
    · next hi =>
      split at h
      · next ho => exact Option.some.inj h ▸ .outputs (not_not.mp hi) ho
      · cases h
  · rintro (hi | ⟨hi, ho⟩) <;> simp [misfit?, *]

theorem details_of_misfit {place : Nat} {r : DrawnRule} (h : t.Misfit place r f) :
    f.details = [("rule", .int place)] := by
  cases h <;> rfl

theorem findSome?_misfit?_eq_some_iff {start : Nat} {rs : List DrawnRule} :
    (Document.countFrom start rs).findSome? (fun x => t.misfit? x.1 x.2) = some f ↔
      ∃ before r after, rs = before ++ r :: after ∧ (∀ q ∈ before, t.Fits q) ∧
        t.Misfit (start + before.length) r f := by
  induction rs generalizing start with
  | nil => simp [Document.countFrom]
  | cons q rs ih =>
    -- what stands at a place of the rest stands one place later among all
    have shift : ∀ n, start + (n + 1) = start + 1 + n := by omega
    rw [Document.countFrom, List.findSome?_cons]
    constructor
    · intro h
      cases hq : t.misfit? start q with
      | none =>
        rw [hq] at h
        obtain ⟨before, r, after, rfl, hb, hm⟩ := ih.mp h
        refine ⟨q :: before, r, after, rfl, ?_, ?_⟩
        · exact List.forall_mem_cons.mpr ⟨misfit?_eq_none_iff.mp hq, hb⟩
        · rwa [List.length_cons, shift]
      | some g =>
        rw [hq] at h
        exact ⟨[], q, rs, rfl, List.forall_mem_nil _, misfit?_eq_some_iff.mp (hq.trans h)⟩
    · rintro ⟨before, r, after, he, hb, hm⟩
      cases before with
      | nil =>
        obtain ⟨rfl, rfl⟩ := List.cons.inj he
        have hq : t.misfit? start q = some f := misfit?_eq_some_iff.mpr hm
        rw [hq]
      | cons p before =>
        obtain ⟨rfl, rfl⟩ := List.cons.inj he
        obtain ⟨hq, hb⟩ := List.forall_mem_cons.mp hb
        rw [misfit?_eq_none_iff.mpr hq]
        refine ih.mpr ⟨before, r, after, rfl, hb, ?_⟩
        rwa [List.length_cons, shift] at hm

theorem countFault?_eq : t.countFault? =
    (Document.countFrom 0 t.rules).findSome? fun x => t.misfit? x.1 x.2 := rfl

theorem countFault?_eq_some_iff : t.countFault? = some f ↔
    ∃ before r after, t.rules = before ++ r :: after ∧ (∀ q ∈ before, t.Fits q) ∧
      t.Misfit before.length r f := by
  rw [countFault?_eq, findSome?_misfit?_eq_some_iff]
  simp only [Nat.zero_add]

theorem countFault?_eq_none_iff : t.countFault? = none ↔ ∀ r ∈ t.rules, t.Fits r := by
  rw [countFault?_eq, List.findSome?_eq_none_iff]
  exact Document.forall_mem_countFrom (p := fun i r => t.misfit? i r = none)
    fun _ _ _ => misfit?_eq_none_iff

end Counts

section Texts

variable {t : DrawnTable}

theorem forall_heading : (∀ s ∈ t.document.heading, ¬ Refuses s) ↔ ¬ Refuses t.decisionName := by
  have hd : ¬ Refuses "definitions" := by decide
  have ht : ¬ Refuses "Table" := by decide
  simp [Document.heading, document, refuses_append, hd, ht]

theorem headingWritable_iff : t.document.headingWritable ↔ ¬ Refuses t.decisionName := by
  rw [Document.headingWritable, allWritable_all_iff, forall_heading]

theorem isWritable_document_iff : t.document.isWritable ↔ ∀ s ∈ t.written, ¬ Refuses s := by
  have inputs : (∀ i ∈ t.document.inputs, ∀ s ∈ [i.label, i.typeRef, i.expression],
      ¬ Refuses s) ↔ ∀ i ∈ t.inputs, ∀ s ∈ [i.label, i.typeRef, i.expression], ¬ Refuses s :=
    Document.forall_mem_numbered fun _ _ _ => Iff.rfl
  have outputs : (∀ o ∈ t.document.outputs, ∀ s ∈ [o.label, o.name, o.typeRef], ¬ Refuses s) ↔
      ∀ o ∈ t.outputs, ∀ s ∈ [o.label, o.name, o.typeRef], ¬ Refuses s :=
    Document.forall_mem_numbered fun _ _ _ => Iff.rfl
  have rules : (∀ r ∈ t.document.rules, ∀ s ∈ r.texts, ¬ Refuses s) ↔
      ∀ r ∈ t.rules, ∀ s ∈ r.inputs ++ r.outputs, ¬ Refuses s :=
    Document.forall_mem_numbered fun _ _ _ => by
      rw [Document.Rule.texts, ruleDocument, Document.entries_text, Document.entries_text]
  rw [Document.isWritable_iff, Document.texts, Document.columnTexts, written]
  simp only [List.forall_mem_append, List.forall_mem_singleton, List.forall_mem_flatMap,
    forall_heading, inputs, outputs, rules, and_assoc]

end Texts

section Causes

variable {t : DrawnTable} {f : Fault}

/-- Nothing keeps the table from being written. -/
@[mk_iff]
structure IsAccepted (t : DrawnTable) : Prop where
  named : Text.allBlank t.decisionName = false
  fits : ∀ r ∈ t.rules, t.Fits r
  writable : ∀ s ∈ t.written, ¬ Refuses s

theorem text_of_isAccepted (h : t.IsAccepted) (pretty : Bool) :
    t.text pretty = .ok (t.document.render pretty) :=
  text_eq_ok_iff.mpr ⟨⟨h.named, countFault?_eq_none_iff.mpr h.fits,
    isWritable_document_iff.mpr h.writable⟩, rfl⟩

theorem text_of_rejects (h : t.Rejects f) (pretty : Bool) : t.text pretty = .error f := by
  cases h with
  | blank h => simp [text, h]
  | misfit hn hr hb h =>
    have hc := countFault?_eq_some_iff.mpr ⟨_, _, _, hr, hb, h⟩
    simp [text, hn, hc]
  | name hn hr h =>
    have hc := countFault?_eq_none_iff.mpr hr
    have hw : t.document.headingWritable = false :=
      Bool.eq_false_iff.mpr fun hw => headingWritable_iff.mp hw h
    simp [text, hn, hc, hw]
  | cell hn hr hw h =>
    have hc := countFault?_eq_none_iff.mpr hr
    have ht : t.document.isWritable = false := Bool.eq_false_iff.mpr fun ht => by
      obtain ⟨s, hs, hb⟩ := h
      exact isWritable_document_iff.mp ht s hs hb
    simp [text, hn, hc, headingWritable_iff.mpr hw, ht]

theorem isAccepted_or_rejects (t : DrawnTable) : t.IsAccepted ∨ ∃ f, t.Rejects f := by
  cases hn : Text.allBlank t.decisionName with
  | true => exact .inr ⟨_, .blank hn⟩
  | false =>
    cases hc : t.countFault? with
    | some f =>
      obtain ⟨before, r, after, hr, hb, hm⟩ := countFault?_eq_some_iff.mp hc
      exact .inr ⟨f, .misfit hn hr hb hm⟩
    | none =>
      have hr := countFault?_eq_none_iff.mp hc
      by_cases hd : Refuses t.decisionName
      · exact .inr ⟨_, .name hn hr hd⟩
      by_cases hw : ∃ s ∈ t.written, Refuses s
      · exact .inr ⟨_, .cell hn hr hd hw⟩
      · exact .inl ⟨hn, hr, fun s hs hb => hw ⟨s, hs, hb⟩⟩

theorem text_eq_error_iff {pretty : Bool} : t.text pretty = .error f ↔ t.Rejects f := by
  refine ⟨fun h => ?_, fun h => text_of_rejects h pretty⟩
  obtain ha | ⟨g, hg⟩ := isAccepted_or_rejects t
  · cases (text_of_isAccepted ha pretty).symm.trans h
  · exact Except.error.inj ((text_of_rejects hg pretty).symm.trans h) ▸ hg

theorem exists_rejects_iff : (∃ f, t.Rejects f) ↔ ¬ t.IsAccepted := by
  refine ⟨fun ⟨f, hf⟩ ha => ?_, (isAccepted_or_rejects t).resolve_left⟩
  cases (text_of_isAccepted ha true).symm.trans (text_of_rejects hf true)

theorem not_isAccepted_iff : ¬ t.IsAccepted ↔ Text.allBlank t.decisionName ∨
    (∃ r ∈ t.rules, ¬ t.Fits r) ∨ ∃ s ∈ t.written, Refuses s := by
  rw [isAccepted_iff, not_and_or, not_and_or, Bool.not_eq_false]
  simp only [not_forall, not_not, exists_prop]

end Causes

end DrawnTable

namespace Generation

open Xml

variable {t : DrawnTable} {f : Fault}

theorem answer_ofDrawn (t : DrawnTable) (pretty : Bool) :
    (ofDrawn t pretty).answer = t.text pretty := by
  rw [ofDrawn]
  cases t.text pretty <;> rfl

theorem kind_of_rejects (h : t.Rejects f) : f.kind = .generation ∨ f = .unwritableName := by
  cases h with
  | blank | cell => exact .inl rfl
  | misfit _ _ _ h => cases h <;> exact .inl rfl
  | name => exact .inr rfl

theorem rejects_unwritableName_iff : t.Rejects .unwritableName ↔
    Text.allBlank t.decisionName = false ∧ (∀ r ∈ t.rules, t.Fits r) ∧ Refuses t.decisionName := by
  refine ⟨fun h => ?_, fun ⟨hn, hr, h⟩ => .name hn hr h⟩
  cases h with
  | misfit _ _ _ h => cases h
  | name hn hr h => exact ⟨hn, hr, h⟩

/-- A drawn table gives a document unless its name is blank, a rule does not fit, or a text holds a
refused character. The first of these causes is reported, and of the rules the first that does not
fit, by its place. Each is a failure of generation but for one: a refused character in the name,
where nothing else is wrong before it, is reported as a bad value. -/
theorem ofDrawn_fails_iff (t : DrawnTable) (pretty : Bool) :
    ((∃ f, (ofDrawn t pretty).answer = .error f) ↔ Text.allBlank t.decisionName ∨
      (∃ r ∈ t.rules, ¬ t.Fits r) ∨ ∃ s ∈ t.written, Refuses s) ∧
    (∀ f, (ofDrawn t pretty).answer = .error f ↔ t.Rejects f) ∧
    (∀ place r f, t.Misfit place r f → f.details = [("rule", .int place)]) ∧
    ((∃ f, (ofDrawn t pretty).answer = .error f ∧ f.kind ≠ .generation) ↔
      Text.allBlank t.decisionName = false ∧ (∀ r ∈ t.rules, t.Fits r) ∧
        Refuses t.decisionName) := by
  rw [answer_ofDrawn]
  have causes : ∀ f, t.text pretty = .error f ↔ t.Rejects f := fun _ => DrawnTable.text_eq_error_iff
  refine ⟨?_, causes, fun _ _ _ => DrawnTable.details_of_misfit, ?_⟩ <;> simp only [causes]
  · exact DrawnTable.exists_rejects_iff.trans DrawnTable.not_isAccepted_iff
  constructor
  · rintro ⟨f, hf, hk⟩
    obtain rfl := (kind_of_rejects hf).resolve_left hk
    exact rejects_unwritableName_iff.mp hf
  · exact fun h => ⟨_, rejects_unwritableName_iff.mpr h, by decide⟩

def bellTable : DrawnTable := ⟨"Grade\x07", [], [], [], .first⟩

/-- The failure is none of generation, although the name is a text like all others. -/
theorem bellTable_bad_value : ∃ f, (ofDrawn bellTable true).answer = .error f ∧
    f.kind = .value ∧ f.kind ≠ .generation ∧ f.message = Fault.unwritableReason := by
  have hr : bellTable.Rejects .unwritableName := .name (by decide) nofun (by decide)
  exact ⟨_, (answer_ofDrawn ..).trans (DrawnTable.text_of_rejects hr true), rfl, by decide, rfl⟩

end Generation

end RuleTables
