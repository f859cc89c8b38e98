import Mathlib.Data.List.Nodup
import RuleTables.Proofs.DocumentText

namespace RuleTables

namespace Xml.Element

mutual

def values (name : String) : Element → List String
  | .text _ as _ => (as.filter (·.1 = name)).map (·.2)
  | .parent _ as es => (as.filter (·.1 = name)).map (·.2) ++ valuesIn name es

def valuesIn (name : String) : List Element → List String
  | [] => []
  | e :: es => values name e ++ valuesIn name es

end

theorem valuesIn_eq_flatMap (name : String) (es : List Element) :
    valuesIn name es = es.flatMap (·.values name) := by
  induction es with
  | nil => rfl
  | cons e es ih => rw [valuesIn, ih, List.flatMap_cons]

end Xml.Element

namespace Document

section Values

def ids (d : Document) : List String := d.element.values "id"

def Input.ids (i : Input) : List String := [i.id, i.expressionId]

def Rule.ids (r : Rule) : List String := r.id :: (r.inputs ++ r.outputs).map (·.id)

def partIds (d : Document) : List String :=
  d.inputs.flatMap (·.ids) ++ d.outputs.map (·.id) ++ d.rules.flatMap (·.ids)

theorem Input.values_element (i : Input) : i.element.values "id" = i.ids := rfl

theorem Output.values_element (o : Output) : o.element.values "id" = [o.id] := rfl

theorem Rule.values_element (r : Rule) : r.element.values "id" = r.ids := by
  have entries : ∀ (tag : String) (es : List Entry),
      (es.map (Entry.element tag)).flatMap (·.values "id") = es.map (·.id) := by
    intro tag es
    rw [List.flatMap_map, List.map_eq_flatMap]
    rfl
  change [r.id] ++ Xml.Element.valuesIn "id" _ = _
  rw [Xml.Element.valuesIn_eq_flatMap, List.flatMap_append, entries, entries, ids, List.map_append,
    List.singleton_append]

theorem ids_eq (d : Document) :
    d.ids = [d.definitionsId, d.decisionId, d.tableId] ++ d.partIds := by
  change [d.definitionsId] ++ (([d.decisionId] ++ (([d.tableId] ++
    Xml.Element.valuesIn "id" _) ++ [])) ++ []) = _
  rw [Xml.Element.valuesIn_eq_flatMap, List.flatMap_append, List.flatMap_append, List.flatMap_map,
    List.flatMap_map, List.flatMap_map]
  simp only [Input.values_element, Output.values_element, Rule.values_element, partIds,
    List.map_eq_flatMap, List.append_nil, List.cons_append, List.nil_append]

end Values

section Numbers

def isUndivided (name : String) : Bool := !name.toList.contains '_'

theorem not_mem_toDigits (n : Nat) : '_' ∉ Nat.toDigits 10 n := fun h =>
  absurd (Nat.isDigit_of_mem_toDigits (by decide) (by decide) h) (by decide)

theorem splitOn_numbered {name : String} (h : isUndivided name) (ns : List Nat) :
    (numbered name ns).toList.splitOn '_' = name.toList :: ns.map (Nat.toDigits 10) := by
  have hw : '_' ∉ name.toList := by simpa [isUndivided] using h
  have hl : (numbered name ns).toList =
      ['_'].intercalate (name.toList :: ns.map (Nat.toDigits 10)) := by
    rw [numbered, String.toList_intercalate, List.map_cons, List.map_map]
    congr 2
    exact List.map_congr_left fun n _ => Nat.toList_repr
  rw [hl, List.splitOn_intercalate '_' ?_ (List.cons_ne_nil _ _)]
  intro l hm
  rcases List.mem_cons.mp hm with rfl | hm
  · exact hw
  · obtain ⟨n, -, rfl⟩ := List.mem_map.mp hm
    exact not_mem_toDigits n

theorem toDigits_inj {m n : Nat} (h : Nat.toDigits 10 m = Nat.toDigits 10 n) : m = n := by
  calc
    m = Nat.ofDigitChars 10 (Nat.toDigits 10 m) 0 := Nat.ofDigitChars_ten_toDigits.symm
    _ = Nat.ofDigitChars 10 (Nat.toDigits 10 n) 0 := by rw [h]
    _ = n := Nat.ofDigitChars_ten_toDigits

/-- The identifier that is made of a name and numbers. -/
def idOf (p : String × List Nat) : String := numbered p.1 p.2

theorem idOf_inj {p q : String × List Nat} (hp : isUndivided p.1) (hq : isUndivided q.1)
    (h : idOf p = idOf q) : p = q := by
  have hs : (idOf p).toList.splitOn '_' = _ := splitOn_numbered hp p.2
  rw [h, idOf, splitOn_numbered hq, List.cons.injEq, String.toList_inj,
    List.map_inj_right fun _ _ => toDigits_inj] at hs
  exact Prod.ext hs.1.symm hs.2.symm

end Numbers

section Parts

/-- The names and numbers of the inputs and outputs of a table. The expressions of its inputs have a
name that is given, and the numbers begin at `start`. -/
def columnLabels (expression : String) (start inputs outputs : Nat) : List (String × List Nat) :=
  (List.range' start inputs).flatMap (fun i => [("input", [i]), (expression, [i])]) ++
    (List.range' start outputs).map fun j => ("output", [j])

def ruleLabels (start inputs outputs rule : Nat) : List (String × List Nat) :=
  ("rule", [rule]) :: ((List.range' start inputs).map (fun i => ("inputEntry", [rule, i])) ++
    (List.range' start outputs).map fun j => ("outputEntry", [rule, j]))

def partLabels (expression : String) (start inputs outputs rules : Nat) :
    List (String × List Nat) :=
  columnLabels expression start inputs outputs ++
    (List.range' start rules).flatMap (ruleLabels start inputs outputs)

variable {expression : String} {start inputs outputs rules : Nat} {p : String × List Nat → Prop}

theorem forall_mem_columnLabels (hi : ∀ i, p ("input", [i])) (he : ∀ i, p (expression, [i]))
    (ho : ∀ j, p ("output", [j])) : ∀ x ∈ columnLabels expression start inputs outputs, p x := by
  rw [columnLabels, List.forall_mem_append, List.forall_mem_flatMap, List.forall_mem_map]
  refine ⟨fun i _ => ?_, fun j _ => ho j⟩
  exact List.forall_mem_cons.mpr ⟨hi i, List.forall_mem_singleton.mpr (he i)⟩

theorem forall_mem_ruleLabels {rule : Nat} (hr : p ("rule", [rule]))
    (hi : ∀ i, p ("inputEntry", [rule, i])) (ho : ∀ j, p ("outputEntry", [rule, j])) :
    ∀ x ∈ ruleLabels start inputs outputs rule, p x := by
  rw [ruleLabels, List.forall_mem_cons, List.forall_mem_append, List.forall_mem_map,
    List.forall_mem_map]
  exact ⟨hr, fun i _ => hi i, fun j _ => ho j⟩

theorem ne_of_names {ps qs : List (String × List Nat)} (names : List String)
    (hp : ∀ p ∈ ps, p.1 ∈ names) (hq : ∀ q ∈ qs, q.1 ∉ names) : ∀ p ∈ ps, ∀ q ∈ qs, p ≠ q :=
  fun p hm q hn he => hq q hn (he ▸ hp p hm)

theorem nodup_map_range' (start count : Nat) {f : Nat → String × List Nat}
    (hf : Function.Injective f) : ((List.range' start count).map f).Nodup :=
  List.Nodup.map hf List.nodup_range'

theorem nodup_flatMap_range' (start count : Nat) {f : Nat → List (String × List Nat)}
    (hf : ∀ i, (f i).Nodup) (hk : ∀ i, ∀ p ∈ f i, p.2.head? = some i) :
    ((List.range' start count).flatMap f).Nodup := by
  refine List.nodup_flatMap.mpr ⟨fun i _ => hf i, ?_⟩
  refine (List.nodup_range' (s := start) (n := count)).imp fun hij p hi hj => hij ?_
  exact Option.some.inj ((hk _ p hi).symm.trans (hk _ p hj))

theorem nodup_columnLabels (hi : expression ≠ "input") (ho : expression ≠ "output") :
    (columnLabels expression start inputs outputs).Nodup := by
  refine List.nodup_append.mpr ⟨nodup_flatMap_range' _ _ ?_ ?_, nodup_map_range' _ _ ?_, ?_⟩
  · exact fun i => by simp [hi.symm]
  · exact fun i => by simp
  · exact fun i j h => by simpa using h
  · refine ne_of_names ["input", expression] ?_ (List.forall_mem_map.mpr fun j _ => ?_)
    · exact List.forall_mem_flatMap.mpr fun i _ => by simp
    · simp [ho.symm]

theorem nodup_ruleLabels (start inputs outputs rule : Nat) :
    (ruleLabels start inputs outputs rule).Nodup := by
  refine List.nodup_cons.mpr ⟨by simp, List.nodup_append.mpr
    ⟨nodup_map_range' _ _ ?_, nodup_map_range' _ _ ?_, ?_⟩⟩
  · exact fun i j h => by simpa using h
  · exact fun i j h => by simpa using h
  · exact ne_of_names ["inputEntry"] (List.forall_mem_map.mpr fun _ _ => by simp)
      (List.forall_mem_map.mpr fun _ _ => by simp)

theorem nodup_partLabels
    (h : expression ∉ ["input", "output", "rule", "inputEntry", "outputEntry"]) :
    (partLabels expression start inputs outputs rules).Nodup := by
  simp only [List.mem_cons, List.not_mem_nil, or_false, not_or] at h
  obtain ⟨hi, ho, hr, hie, hoe⟩ := h
  refine List.nodup_append.mpr ⟨nodup_columnLabels hi ho, nodup_flatMap_range' _ _ ?_ ?_, ?_⟩
  · exact nodup_ruleLabels start inputs outputs
  · exact fun r => forall_mem_ruleLabels rfl (fun _ => rfl) fun _ => rfl
  · refine ne_of_names ["input", expression, "output"] ?_ (List.forall_mem_flatMap.mpr fun r _ => ?_)
    · exact forall_mem_columnLabels (by simp) (by simp) (by simp)
    · exact forall_mem_ruleLabels (by simp [Ne.symm hr]) (fun _ => by simp [Ne.symm hie])
        fun _ => by simp [Ne.symm hoe]

/-- The identifiers of all parts of a table are different. -/
theorem nodup_partLabels_ids (hu : isUndivided expression)
    (h : expression ∉ ["input", "output", "rule", "inputEntry", "outputEntry"]) :
    ((partLabels expression start inputs outputs rules).map idOf).Nodup := by
  have named : ∀ name ∈ ["input", "output", "rule", "inputEntry", "outputEntry"],
      isUndivided name := by decide
  have undivided : ∀ p ∈ partLabels expression start inputs outputs rules, isUndivided p.1 := by
    refine List.forall_mem_append.mpr ⟨?_, List.forall_mem_flatMap.mpr fun r _ => ?_⟩
    · exact forall_mem_columnLabels (fun _ => named _ (by simp)) (fun _ => hu)
        fun _ => named _ (by simp)
    · exact forall_mem_ruleLabels (named _ (by simp)) (fun _ => named _ (by simp))
        fun _ => named _ (by simp)
  exact (nodup_partLabels h).map_on fun p hp q hq => idOf_inj (undivided p hp) (undivided q hq)

end Parts

section Numbering

variable {α β γ : Type} {d : Document} {is : List α} {os : List β} {rs : List γ}
  {expression : String} {start : Nat} {input : Nat → α → Input} {output : Nat → β → Output}
  {rule : Nat → γ → Rule}

theorem flatMap_countFrom {f : Nat → α → List String} {g : Nat → List String}
    (h : ∀ i, ∀ x ∈ is, f i x = g i) (start : Nat) :
    (countFrom start is).flatMap (fun x => f x.1 x.2) = (List.range' start is.length).flatMap g := by
  induction is generalizing start with
  | nil => rfl
  | cons x is ih =>
    rw [countFrom, List.flatMap_cons, List.length_cons, List.range'_succ, List.flatMap_cons,
      h start x List.mem_cons_self, ih fun i y hy => h i y (List.mem_cons_of_mem x hy)]

theorem entries_ids (name : String) (rule start : Nat) (texts : List String) :
    (entries name rule start texts).map (·.id) =
      (List.range' start texts.length).map fun i => idOf (name, [rule, i]) := by
  have h := flatMap_countFrom (f := fun i _ => [idOf (name, [rule, i])])
    (fun _ x (_ : x ∈ texts) => rfl) start
  rw [entries, List.map_map, List.map_eq_flatMap, List.map_eq_flatMap]
  exact h

theorem rule_ids (start k : Nat) (xs ys : List String) :
    Rule.ids ⟨numbered "rule" [k], entries "inputEntry" k start xs,
      entries "outputEntry" k start ys⟩ = (ruleLabels start xs.length ys.length k).map idOf := by
  rw [Rule.ids, List.map_append, entries_ids, entries_ids, ruleLabels, List.map_cons,
    List.map_append, List.map_map, List.map_map]
  rfl

theorem partIds_eq (hi : d.inputs = (countFrom start is).map fun x => input x.1 x.2)
    (ho : d.outputs = (countFrom start os).map fun x => output x.1 x.2)
    (hr : d.rules = (countFrom start rs).map fun x => rule x.1 x.2)
    (inputIds : ∀ k i, (input k i).ids = [idOf ("input", [k]), idOf (expression, [k])])
    (outputId : ∀ k o, (output k o).id = idOf ("output", [k]))
    (ruleIds : ∀ k, ∀ r ∈ rs, (rule k r).ids = (ruleLabels start is.length os.length k).map idOf) :
    d.partIds = (partLabels expression start is.length os.length rs.length).map idOf := by
  rw [partIds, hi, ho, hr, List.flatMap_map, List.map_map, List.flatMap_map, partLabels,
    columnLabels, List.map_append, List.map_append, List.map_flatMap, List.map_flatMap,
    List.map_map, List.map_eq_flatMap, List.map_eq_flatMap]
  congr 1
  · congr 1
    · exact flatMap_countFrom (f := fun k i => (input k i).ids) (fun k i _ => inputIds k i) start
    · exact flatMap_countFrom (f := fun k o => [(output k o).id])
        (fun k o _ => congrArg (fun id => [id]) (outputId k o)) start
  · exact flatMap_countFrom (f := fun k r => (rule k r).ids) ruleIds start

end Numbering

end Document

end RuleTables
