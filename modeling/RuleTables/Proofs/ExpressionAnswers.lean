import RuleTables.Proofs.Echo
import RuleTables.Proofs.Gate
import RuleTables.Proofs.Posting

namespace RuleTables

namespace Request

variable {α β : Type}

def Checked.issues : Checked α → List Issue
  | .good _ => []
  | .bad is => is

def FindsWithin (v : Json) (c : Checked α) : Prop :=
  ∀ i ∈ c.issues, i.input.Within v

section Finding

variable {u v : Json} {c : Checked α}

theorem findsWithin_good (v : Json) (a : α) : FindsWithin v (.good a) :=
  nofun

theorem findsWithin_fail (cause : Cause) (v : Json) : FindsWithin v (.fail cause v : Checked α) :=
  fun _ hi => List.mem_singleton.mp hi ▸ .refl v

theorem FindsWithin.map (h : FindsWithin v c) (f : α → β) : FindsWithin v (f <$> c) := by
  cases c with
  | good a => exact findsWithin_good v (f a)
  | bad is => exact h

theorem FindsWithin.seq {f : Checked (α → β)} (hf : FindsWithin v f) (h : FindsWithin v c) :
    FindsWithin v (f <*> c) := by
  cases f with
  | good g => cases c with
    | good a => exact findsWithin_good v (g a)
    | bad is => exact h
  | bad is => cases c with
    | good a => exact hf
    | bad js => exact fun i hi => (List.mem_append.mp hi).elim (hf i) (h i)

theorem FindsWithin.within (h : FindsWithin v c) (p : Place) : FindsWithin v (c.within p) := by
  cases c with
  | good a => exact findsWithin_good v a
  | bad is =>
    intro i hi
    obtain ⟨j, hj, rfl⟩ := List.mem_map.mp hi
    exact h j hj

theorem FindsWithin.mono (h : FindsWithin u c) (hu : u.Within v) : FindsWithin v c :=
  fun i hi => (h i hi).trans hu

theorem within_of_findFirst {names : List String} {ms : Json.Members} {m : String × Json}
    (h : findFirst names ms = some m) : m.2.Within (.object ms) := by
  obtain ⟨name, -, hn⟩ := List.exists_of_findSome?_eq_some h
  obtain ⟨v, hv, rfl⟩ := Option.map_eq_some_iff.mp hn
  exact .of_find? hv

theorem findsWithin_field {read : Json → Checked α} (h : ∀ v, FindsWithin v (read v))
    (names : List String) (usual : Option α) (ms : Json.Members) :
    FindsWithin (.object ms) (field names read usual ms) := by
  unfold field
  split
  · next hm => exact ((h _).mono (within_of_findFirst hm)).within _
  · exact findsWithin_good _ _
  · exact (findsWithin_fail _ _).within _

theorem findsWithin_record {read : Json.Members → Checked α} {posted : Bool} {model : String}
    (h : ∀ ms, FindsWithin (.object ms) (read ms)) (v : Json) :
    FindsWithin v (record posted model read v) := by
  cases v with
  | object ms => exact h ms
  | _ => exact findsWithin_fail _ _

theorem findsWithin_text (v : Json) : FindsWithin v (text v) := by
  cases v with
  | text s => exact findsWithin_good _ s
  | _ => exact findsWithin_fail _ _

theorem findsWithin_tree (v : Json) : FindsWithin v (tree v) := by
  unfold tree
  split
  · split
    · exact findsWithin_fail _ _
    · exact findsWithin_good _ _
  · exact findsWithin_fail _ _

theorem ExpressionBody.findsWithin_read (posted : Bool) (v : Json) :
    FindsWithin v (ExpressionBody.read posted v) :=
  findsWithin_record (fun ms => ((findsWithin_field findsWithin_tree _ _ ms).map _).seq
    (findsWithin_field findsWithin_text _ _ ms)) v

theorem eq_of_value?_tree {v w : Json} (h : (tree v).value? = some w) : w = v := by
  unfold tree at h
  split at h
  · split at h
    · cases h
    · exact (Option.some.inj h).symm
  · cases h

theorem ExpressionBody.within_of_value? {posted : Bool} {v : Json} {b : ExpressionBody}
    (h : (ExpressionBody.read posted v).value? = some b) : b.expression.Within v := by
  cases v with
  | object ms =>
    rw [ExpressionBody.read, record, Checked.value?_seq, Checked.value?_map] at h
    obtain ⟨f, hf, h⟩ := Option.bind_eq_some_iff.mp h
    obtain ⟨w, hw, rfl⟩ := Option.map_eq_some_iff.mp hf
    obtain ⟨lead, -, rfl⟩ := Option.map_eq_some_iff.mp h
    rw [value?_field] at hw
    cases hm : findFirst ["expression"] ms with
    | none => rw [hm] at hw; cases hw
    | some m =>
      rw [hm] at hw
      exact eq_of_value?_tree hw ▸ within_of_findFirst hm
  | _ => cases h

end Finding

section Telling

theorem isStrict_placeJson (p : Place) : p.json.isStrict := by
  cases p <;> rfl

theorem Cause.isStrict_context (c : Cause) : (Json.object c.context).isStrict := by
  cases c <;> rfl

theorem Issue.isStrict_json (i : Issue) : i.json.isStrict = i.input.isStrict := by
  have hp : (Json.list (i.place.map (·.json))).isStrict := by
    rw [Json.isStrict_list_iff, List.forall_mem_map]
    exact fun p _ => isStrict_placeJson p
  have hc := i.cause.isStrict_context
  have ht : ∀ s, (Json.text s).isStrict := fun _ => rfl
  rw [Bool.eq_iff_iff, Issue.json, Json.isStrict_object_iff]
  cases h : i.cause.context with
  | nil => simp [ht, hp]
  | cons m ms =>
    rw [h] at hc
    simp [ht, hp, hc]

end Telling

end Request

namespace Service

open Request

/-- The values that are repeated in the answer to a posted expression. -/
def echoes (v : Json) : List Json :=
  match (Posted.ofValue v).check (ExpressionBody.read true) with
  | .bad is => is.map (·.input)
  | .good b =>
    match Expr.ofTree false b.expression with
    | .error f => f.details.map (·.2)
    | .ok _ => []

/-- The body has its fields, and its tree can be read as an expression. -/
def HoldsExpression (v : Json) : Prop :=
  ∃ b e, (ExpressionBody.read true v).value? = some b ∧ Expr.ofTree false b.expression = .ok e

/-- What comes of a posted tree: an answer if it was read as an expression, else its fault. -/
structure Work.Serves (w : Work) (tree : Json) : Prop where
  unread : ∀ f, Expr.ofTree false tree = .error f → w.outcome = .error (.fault (.tree f))
  read : ∀ e, Expr.ofTree false tree = .ok e → ∃ a, w.outcome = .ok a ∧ a.status = 200

section Statuses

variable {s : Settings} {c : Call} {t : Target} {v : Json}

theorem serves_validate (b : ExpressionBody) : (Work.validate b).Serves b.expression where
  unread f hf := by
    rw [Work.validate, Expr.read, hf]
    rfl
  read e he := by
    rw [Work.validate, Expr.read, he]
    exact ⟨_, rfl, rfl⟩

theorem serves_render (b : ExpressionBody) :
    (Work.ofView [] (Work.renderedJson b)).Serves b.expression where
  unread f hf := by
    rw [Work.renderedJson, Expr.read, hf]
    rfl
  read e he := by
    have passes := Expr.passesAll_of_isComplete (Expr.isComplete_of_ofTree he)
    obtain ⟨names, hn⟩ := passes.parameters
    obtain ⟨rows, hr⟩ := passes.rows names []
    obtain ⟨readable, ha⟩ := passes.readable
    obtain ⟨java, hj⟩ := passes.java b.lead
    obtain ⟨feel, hf⟩ := passes.feel b.lead
    obtain ⟨csv, hc⟩ := passes.records
    obtain ⟨base64, hb⟩ := passes.base64
    rw [Work.renderedJson, Expr.read, he]
    simp only [Except.mapError, bind, Except.bind, hn, hr, ha, hj, hf, hc, hb, pure, Except.pure]
    exact ⟨_, rfl, rfl⟩

theorem exists_serving (ht : t = .validate ∨ t = .render) (k : Meters) :
    ∃ go : ExpressionBody → Work, (∀ b, (go b).Serves b.expression) ∧
      Work.ofTarget s k c t = Work.withBody (ExpressionBody.read true) c go := by
  rcases ht with rfl | rfl
  · exact ⟨Work.validate, serves_validate, rfl⟩
  · exact ⟨_, serves_render, rfl⟩

theorem status_reply_refused (is : List Issue) : (reply (Trouble.issues is).answer).1 =
    if (is.map (·.input)).all Json.isStrict then 422 else 500 := by
  have hw : (Json.object [("detail", .list (is.map (·.json)))]).isStrict ↔
      (is.map (·.input)).all Json.isStrict := by
    rw [Json.isStrict_object_iff, List.forall_mem_singleton, Json.isStrict_list_iff]
    simp [Issue.isStrict_json]
  rw [Trouble.answer, settle, status_reply_tell]
  exact if_congr hw rfl rfl

theorem status_reply_unread (f : TreeFault) : (reply (Trouble.fault (.tree f)).answer).1 =
    if (f.details.map (·.2)).all Json.isStrict then 400 else 500 := by
  have hw : (Json.object f.details).isStrict ↔ (f.details.map (·.2)).all Json.isStrict := by
    rw [Json.isStrict_object_iff, List.all_eq_true, List.forall_mem_map]
  rw [Trouble.answer, settle]
  exact (status_reply_tell _ _).trans (if_congr hw rfl rfl)

theorem status_reply_expression (hp : c.Posts t v) (ht : t = .validate ∨ t = .render)
    (k : Meters) : ∃ n, (reply (Work.ofTarget s k c t).answer).1 = n ∧
      (n ∈ if (echoes v).all Json.isStrict then [200, 400, 422] else [500]) ∧
      (n = 200 ↔ HoldsExpression v) := by
  obtain ⟨go, serves, hgo⟩ := exists_serving ht k
  rw [hgo, Work.withBody_eq hp, HoldsExpression, ← Posted.value?_check rfl]
  cases hc : (Posted.ofValue v).check (ExpressionBody.read true) with
  | bad is =>
    have he : echoes v = is.map (·.input) := by rw [echoes, hc]
    refine ⟨_, status_reply_refused is, ?_, iff_of_false ?_ nofun⟩
    · rw [he]
      split <;> simp
    · split <;> simp
  | good b =>
    cases hr : Expr.ofTree false b.expression with
    | error f =>
      have he : echoes v = f.details.map (·.2) := by rw [echoes, hc]; simp only [hr]
      have hn : (reply (go b).answer).1 = (reply (Trouble.fault (.tree f)).answer).1 := by
        rw [Work.answer, (serves b).unread f hr]
      refine ⟨_, hn.trans (status_reply_unread f), ?_, iff_of_false ?_ ?_⟩
      · rw [he]
        split <;> simp
      · split <;> simp
      · rintro ⟨b', e, hb, he⟩
        cases hb
        cases hr.symm.trans he
    | ok e =>
      have he : echoes v = [] := by rw [echoes, hc]; simp only [hr]
      obtain ⟨a, ha, hs⟩ := (serves b).read e hr
      refine ⟨200, ?_, ?_, iff_of_true rfl ⟨b, e, rfl, hr⟩⟩
      · dsimp only
        rw [Work.answer, ha]
        exact hs
      · rw [he]
        exact List.mem_cons_self

end Statuses

theorem findsWithin_check {α : Type} {read : Json → Checked α} (h : ∀ v, FindsWithin v (read v))
    (v : Json) : FindsWithin v ((Posted.ofValue v).check read) := by
  cases v with
  | null => exact (findsWithin_fail _ _).within _
  | _ => exact (h _).within _

theorem within_of_mem_echoes {v w : Json} (h : w ∈ echoes v) : w.Within v := by
  unfold echoes at h
  split at h
  · next is hc =>
    obtain ⟨i, hi, rfl⟩ := List.mem_map.mp h
    have finds := findsWithin_check (ExpressionBody.findsWithin_read true) v
    rw [hc] at finds
    exact finds i hi
  · next b hc =>
    split at h
    · next f hf =>
      obtain ⟨d, hd, rfl⟩ := List.mem_map.mp h
      have hb : (ExpressionBody.read true v).value? = some b := by
        rw [← Posted.value?_check rfl, hc]
        rfl
      exact (Expr.repeatsOnly_ofTree false b.expression f hf d hd).trans
        (ExpressionBody.within_of_value? hb)
    · cases h

/-- A posted expression is answered as it asks just if there is one in the body, and with a server
error just if the answer would repeat a real that is not finite, unless the service cannot ask for
identifiers. What is repeated stands in the body, so a body without such reals never makes the
answer fail. -/
theorem respond_expression_status {c : Call} {t : Target} {v : Json} (hp : c.Posts t v)
    (ht : t = .validate ∨ t = .render) (s : Settings) (m : Meters) (fresh : String) :
    ∃ n, (respond s m fresh c).answer.status = n ∧ n ∈ [200, 400, 422, 500] ∧
      (n = 200 ↔ asksForNames s ∧ HoldsExpression v) ∧
      (n = 500 ↔ ¬ asksForNames s ∨ ∃ w ∈ echoes v, w.isStrict = false) ∧
      (∀ w ∈ echoes v, w.Within v) ∧ (v.isStrict → asksForNames s → n ∈ [200, 400, 422]) := by
  by_cases hs : asksForNames s
  · have hm : t.methods = ["POST"] := by rcases ht with rfl | rfl <;> rfl
    obtain ⟨k, hk⟩ := reply_respond hp hm s m fresh hs
    obtain ⟨n, hr, hn, hg⟩ := status_reply_expression (s := s) hp ht k
    have hg' : n = 200 ↔ asksForNames s ∧ HoldsExpression v := hg.trans (and_iff_right hs).symm
    refine ⟨n, (congrArg Prod.fst hk).trans hr, ?_⟩
    cases he : (echoes v).all Json.isStrict with
    | true =>
      rw [he, if_pos rfl] at hn
      have told : ¬∃ w ∈ echoes v, w.isStrict = false := by
        simpa using he
      refine ⟨List.mem_append_left [500] hn, hg', ?_, fun w => within_of_mem_echoes, fun _ _ => hn⟩
      refine iff_of_false (fun h => ?_) fun h => h.elim (· hs) told
      subst h
      exact absurd hn (by decide)
    | false =>
      rw [he, if_neg Bool.false_ne_true] at hn
      obtain rfl := List.mem_singleton.mp hn
      obtain ⟨w, hw, hf⟩ := List.all_eq_false.mp he
      have untold : w.isStrict = false := by simpa using hf
      refine ⟨by decide, hg', iff_of_true rfl (.inr ⟨w, hw, untold⟩),
        fun w => within_of_mem_echoes, fun hv _ => ?_⟩
      exact absurd ((within_of_mem_echoes hw).isStrict hv) hf
  · exact ⟨500, status_respond_of_not s m fresh c hs, by decide,
      iff_of_false (by decide) fun h => hs h.1, iff_of_true rfl (.inl hs),
      fun w => within_of_mem_echoes, fun _ h => absurd h hs⟩

def priceTestedBy (operator : Json) : Json :=
  .object [("expression", .object [("type", .text "condition"), ("parameter", .text "price"),
    ("operator", operator)])]

def priceCall (operator : Json) : Call :=
  .posting .validate (priceTestedBy operator)

theorem priceTestedBy_true_answered :
    (priceCall (.bool true)).Posts .validate (priceTestedBy (.bool true)) ∧
      (respond .usual .zero "" (priceCall (.bool true))).answer.status ∈ [200, 400, 422] := by
  have hp : (priceCall (.bool true)).Posts .validate (priceTestedBy (.bool true)) :=
    Call.posts_posting .validate (by decide) (by decide +kernel)
  obtain ⟨n, hn, -, -, -, -, hs⟩ := respond_expression_status hp (.inl rfl) .usual .zero ""
  exact ⟨hp, hn ▸ hs (by decide) asksForNames_usual⟩

/-- Nor is a real that is no number, but the answer that would say so cannot be written. -/
theorem priceTestedBy_nan_fails : ∃ v, (priceCall (.real .nan)).Posts .validate v ∧
    (respond .usual .zero "" (priceCall (.real .nan))).answer.status ∉ [200, 400, 422] := by
  have ho : (Json.parseChars
      ((priceTestedBy (.real .nan)).render Json.compact).toList).isOk := by decide +kernel
  obtain ⟨v, hv⟩ := exists_of_isOk ho
  have hd : Text.decodeDetected (priceCall (.real .nan)).body =
      some ((priceTestedBy (.real .nan)).render Json.compact).toList := by decide +kernel
  exact ⟨v, ⟨rfl, rfl, Call.isJsonType_posting _ _, _, hd, hv⟩, by decide +kernel⟩

end Service

end RuleTables
