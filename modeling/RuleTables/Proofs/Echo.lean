import RuleTables.Proofs.JsonText
import RuleTables.Proofs.TreeReading

namespace RuleTables

namespace Assoc

variable {α : Type}

theorem exists_mem_of_find? {name : String} {ms : List (String × α)} {a : α}
    (h : find? name ms = some a) : ∃ m ∈ ms, m.2 = a := by
  induction ms with
  | nil => cases h
  | cons m ms ih =>
    rw [find?] at h
    split at h
    · exact ⟨m, List.mem_cons_self, Option.some.inj h⟩
    · obtain ⟨k, hk, rfl⟩ := ih h
      exact ⟨k, List.mem_cons_of_mem m hk, rfl⟩

end Assoc

namespace Json

/-- A value that stands somewhere in another one, or is that value. -/
inductive Within : Json → Json → Prop
  | refl (v) : Within v v
  | item {w v vs} : v ∈ vs → Within w v → Within w (list vs)
  | member {w m ms} : m ∈ ms → Within w m.2 → Within w (object ms)

section Places

variable {u v w : Json} {vs : List Json} {ms : Members}

theorem Within.trans (h : Within u v) (k : Within v w) : Within u w := by
  induction k with
  | refl => exact h
  | item hm _ ih => exact .item hm ih
  | member hm _ ih => exact .member hm ih

theorem Within.of_find? {name : String} (h : Assoc.find? name ms = some v) :
    Within v (object ms) := by
  obtain ⟨m, hm, rfl⟩ := Assoc.exists_mem_of_find? h
  exact .member hm (.refl m.2)

/-- What holds of an object as soon as it holds of all that stands in its members holds of every
value, if it holds of all values that are no objects. -/
theorem Within.induct {motive : Json → Prop}
    (object : ∀ ms, (∀ w m, m ∈ ms → Within w m.2 → motive w) → motive (object ms))
    (other : ∀ v, (∀ ms, v ≠ Json.object ms) → motive v) (v : Json) : motive v := by
  have all : ∀ w, Within w v → motive w := by
    induction v using Json.induct with
    | list vs ih =>
      intro w hw
      cases hw with
      | refl => exact other _ nofun
      | item hm hw => exact ih _ hm w hw
    | object ms ih =>
      intro w hw
      cases hw with
      | refl => exact object ms fun w m hm hw => ih m hm w hw
      | member hm hw => exact ih _ hm w hw
    | null | bool _ | int _ | real _ | text _ =>
      intro w hw
      cases hw
      exact other _ nofun
  exact all v (.refl v)

theorem isStrict_list_iff : (list vs).isStrict ↔ ∀ v ∈ vs, v.isStrict := by
  rw [isStrict]
  induction vs with
  | nil => simp [areStrict]
  | cons v vs ih => rw [areStrict, Bool.and_eq_true, ih, List.forall_mem_cons]

theorem isStrict_object_iff : (object ms).isStrict ↔ ∀ m ∈ ms, m.2.isStrict := by
  rw [isStrict]
  induction ms with
  | nil => simp [membersAreStrict]
  | cons m ms ih => rw [membersAreStrict, Bool.and_eq_true, ih, List.forall_mem_cons]

theorem Within.isStrict (h : Within w v) (hv : v.isStrict) : w.isStrict := by
  induction h with
  | refl => exact hv
  | item hm _ ih => exact ih (isStrict_list_iff.mp hv _ hm)
  | member hm _ ih => exact ih (isStrict_object_iff.mp hv _ hm)

end Places

end Json

section Faults

variable {α β : Type} {x : Except TreeFault α} {u v : Json} {ms : Json.Members}

/-- Whatever the fault is, it repeats only values that stand in the given one. -/
def RepeatsOnly (v : Json) (x : Except TreeFault α) : Prop :=
  ∀ f, x = .error f → ∀ d ∈ f.details, d.2.Within v

theorem repeatsOnly_ok (v : Json) (a : α) : RepeatsOnly v (.ok a) :=
  nofun

theorem repeatsOnly_error {f : TreeFault} (h : ∀ d ∈ f.details, d.2.Within v) :
    RepeatsOnly v (.error f : Except TreeFault α) :=
  fun _ he => Except.error.inj he ▸ h

theorem repeatsOnly_one {f : TreeFault} {name : String} {w : Json} (hf : f.details = [(name, w)])
    (h : w.Within v) : RepeatsOnly v (.error f : Except TreeFault α) := by
  refine repeatsOnly_error fun d hd => ?_
  rw [hf] at hd
  rw [List.mem_singleton.mp hd]
  exact h

theorem RepeatsOnly.bind {f : α → Except TreeFault β} (h : RepeatsOnly v x)
    (hf : ∀ a, RepeatsOnly v (f a)) : RepeatsOnly v (x >>= f) := by
  cases x with
  | error e => exact fun g hg => h g (Except.error.inj hg ▸ rfl)
  | ok a => exact hf a

theorem RepeatsOnly.map {f : α → β} (h : RepeatsOnly v x) : RepeatsOnly v (x.map f) := by
  cases x with
  | error e => exact fun g hg => h g (Except.error.inj hg ▸ rfl)
  | ok a => exact repeatsOnly_ok v (f a)

theorem RepeatsOnly.mono (h : RepeatsOnly u x) (hu : u.Within v) : RepeatsOnly v x :=
  fun f hf d hd => (h f hf d hd).trans hu

theorem repeatsOnly_textField (field : String) (ms : Json.Members) :
    RepeatsOnly (.object ms) (textField? field ms) := by
  rw [textField?]
  split
  · exact repeatsOnly_ok _ _
  · exact repeatsOnly_ok _ _
  · exact repeatsOnly_ok _ _
  · exact repeatsOnly_one rfl (.refl _)

namespace Condition

theorem repeatsOnly_operatorOf (v : Json) : RepeatsOnly v (operatorOf v) := by
  cases v with
  | text s =>
    rw [operatorOf]
    split
    · exact repeatsOnly_ok _ _
    · exact repeatsOnly_one rfl (.refl _)
  | _ => exact repeatsOnly_one rfl (.refl _)

theorem repeatsOnly_valueOf (v : Json) : RepeatsOnly v (valueOf v) := by
  cases v with
  | list vs | object ms => exact repeatsOnly_one rfl (.refl _)
  | _ => exact repeatsOnly_ok _ _

theorem repeatsOnly_value (ms : Json.Members) :
    RepeatsOnly (.object ms) (valueOf ((Assoc.find? "value" ms).getD .null)) := by
  cases h : Assoc.find? "value" ms with
  | none => exact repeatsOnly_ok _ _
  | some v => exact (repeatsOnly_valueOf v).mono (.of_find? h)

theorem repeatsOnly_ofTree (ms : Json.Members) : RepeatsOnly (.object ms) (ofTree ms) := by
  have absent : ∀ field, RepeatsOnly (.object ms)
      (.error (.absent "condition" field (.object ms)) : Except TreeFault Condition) := fun field =>
    repeatsOnly_one rfl (.refl _)
  unfold ofTree
  refine (repeatsOnly_textField "dataType" ms).bind fun typeRef => ?_
  cases Assoc.find? "parameter" ms with
  | none => exact absent "parameter"
  | some p =>
    cases p with
    | text parameter =>
      cases hv : Assoc.find? "operator" ms with
      | none => exact absent "operator"
      | some v =>
        refine ((repeatsOnly_operatorOf v).mono (.of_find? hv)).bind fun operator => ?_
        refine (repeatsOnly_value ms).bind fun value => ?_
        split
        · exact repeatsOnly_ok _ _
        · exact repeatsOnly_ok _ _
        · exact repeatsOnly_error fun d hd => List.mem_singleton.mp hd ▸ .refl _
    | _ => exact repeatsOnly_error fun d hd => List.mem_singleton.mp hd ▸ .refl _

end Condition

namespace Expr

theorem repeatsOnly_constantOfTree (ms : Json.Members) :
    RepeatsOnly (.object ms) (constantOfTree ms) := by
  unfold constantOfTree
  split
  · exact repeatsOnly_one rfl (.refl _)
  · exact (repeatsOnly_ok _ _).bind fun b =>
      (repeatsOnly_textField "label" ms).bind fun label => repeatsOnly_ok _ _
  · exact repeatsOnly_one rfl (.refl _)

theorem repeatsOnly_connectiveOfTree {whole : Json} (hw : whole.Within v)
    (hm : (Json.object ms).Within v) : RepeatsOnly v (connectiveOfTree whole ms) := by
  unfold connectiveOfTree
  refine ((repeatsOnly_textField "connective" ms).mono hm).bind fun symbol => ?_
  split
  · exact repeatsOnly_ok _ _
  · split
    · exact repeatsOnly_ok _ _
    · exact repeatsOnly_one rfl hw

theorem repeatsOnly_compositeOfTree (strict : Bool) (whole : Json) (ns : List (Node Expr)) :
    RepeatsOnly whole (compositeOfTree strict whole ns) := by
  unfold compositeOfTree
  split
  · exact repeatsOnly_one rfl (.refl _)
  · exact repeatsOnly_ok _ _

variable {strict : Bool}

theorem repeatsOnly_childIn {absent : TreeFault} (ha : ∀ d ∈ absent.details, d.2.Within v)
    (hm : (Json.object ms).Within v)
    (ih : ∀ m ∈ ms, RepeatsOnly m.2 (ofTree strict m.2)) :
    RepeatsOnly v (childIn strict absent ms) := by
  rw [childIn_eq]
  cases hw : Assoc.find? "expression" ms with
  | none => exact repeatsOnly_error ha
  | some w =>
    obtain ⟨m, hmem, rfl⟩ := Assoc.exists_mem_of_find? hw
    exact (ih m hmem).mono ((Json.Within.of_find? hw).trans hm)

theorem repeatsOnly_nodeOfTree {whole entry : Json} (he : entry.Within whole)
    (ih : ∀ w, w.Within entry → RepeatsOnly w (ofTree strict w)) :
    RepeatsOnly whole (nodeOfTree strict whole entry) := by
  cases entry with
  | object ms =>
    rw [nodeOfTree]
    refine (repeatsOnly_connectiveOfTree (.refl _) he).bind fun c => ?_
    have ha : ∀ d ∈ (TreeFault.absent "composite" "expression" whole).details,
        d.2.Within whole := fun d hd => List.mem_singleton.mp hd ▸ .refl whole
    exact (repeatsOnly_childIn ha he fun m hm => ih m.2 (.member hm (.refl _))).bind fun e =>
      repeatsOnly_ok _ _
  | null | bool _ | int _ | real _ | text _ | list _ =>
    rw [nodeOfTree]
    · exact repeatsOnly_one rfl he
    · exact nofun

theorem repeatsOnly_nodesOfEntries {whole : Json} {entries : List Json}
    (he : ∀ entry ∈ entries, entry.Within whole)
    (ih : ∀ entry ∈ entries, ∀ w, w.Within entry → RepeatsOnly w (ofTree strict w)) :
    RepeatsOnly whole (nodesOfEntries strict whole entries) := by
  induction entries with
  | nil => rw [nodesOfEntries]; exact repeatsOnly_ok _ _
  | cons entry entries ihs =>
    obtain ⟨hx, hs⟩ := List.forall_mem_cons.mp he
    obtain ⟨ix, is⟩ := List.forall_mem_cons.mp ih
    rw [nodesOfEntries]
    exact (repeatsOnly_nodeOfTree hx ix).bind fun n => (ihs hs is).bind fun ns =>
      repeatsOnly_ok _ _

theorem repeatsOnly_nodesIn (ih : ∀ w m, m ∈ ms → w.Within m.2 → RepeatsOnly w (ofTree strict w)) :
    RepeatsOnly (.object ms) (nodesIn strict (.object ms) ms) := by
  rw [nodesIn_eq]
  cases hw : Assoc.find? "nodes" ms with
  | none => exact repeatsOnly_one rfl (.refl _)
  | some w =>
    obtain ⟨m, hm, rfl⟩ := Assoc.exists_mem_of_find? hw
    rw [Option.elim_some]
    cases hn : m.2 with
    | list entries =>
      have inside : ∀ entry ∈ entries, entry.Within m.2 := fun entry he =>
        hn ▸ .item he (.refl entry)
      rw [nodesOfTree]
      exact repeatsOnly_nodesOfEntries (fun entry he => .member hm (inside entry he))
        fun entry he w hw => ih w m hm (hw.trans (inside entry he))
    | null | bool _ | int _ | real _ | text _ | object _ =>
      rw [nodesOfTree]
      · exact repeatsOnly_one rfl (.refl _)
      · exact nofun

theorem repeatsOnly_ofTree (strict : Bool) (v : Json) : RepeatsOnly v (ofTree strict v) := by
  induction v using Json.Within.induct with
  | object ms ih =>
    rw [ofTree]
    split
    · exact (Condition.repeatsOnly_ofTree ms).map
    · exact (repeatsOnly_nodesIn ih).bind fun ns => repeatsOnly_compositeOfTree strict _ ns
    · have ha : ∀ d ∈ (TreeFault.absent "group" "expression" (.object ms)).details,
          d.2.Within (.object ms) := fun d hd => List.mem_singleton.mp hd ▸ .refl _
      exact (repeatsOnly_childIn ha (.refl _) fun m hm => ih m.2 m hm (.refl _)).map
    · exact repeatsOnly_constantOfTree ms
    · exact repeatsOnly_one rfl (.refl _)
  | other v hv =>
    rw [ofTree]
    · exact repeatsOnly_one rfl (.refl _)
    · exact hv

end Expr

end Faults

end RuleTables
