import RuleTables.Expr.Readable
import RuleTables.Proofs.RecordStable
import RuleTables.Proofs.TokenReading

namespace RuleTables

namespace Expr

/-- Nothing but conditions and composites. -/
def isBare (e : Expr) : Bool :=
  e.every fun
    | condition _ | composite _ => true
    | _ => false

variable {e : Expr} {ns : List (Node Expr)}

theorem isBare_composite : (composite ns).isBare ↔ ∀ n ∈ ns, n.child.isBare := by
  simp only [isBare, every, everyChild_eq_all, Bool.true_and, List.all_eq_true]

theorem exists_of_mem_placesFrom {k : Nat} {p : Place} (h : p ∈ placesFrom k ns) :
    ∃ n ∈ ns, ∃ j, k ≤ j ∧ ∃ q ∈ n.child.places, p = q.inEntry j n.connective := by
  induction ns generalizing k with
  | nil => cases h
  | cons n ns ih =>
    rw [placesFrom, List.mem_append, List.mem_map] at h
    rcases h with ⟨q, hq, rfl⟩ | h
    · exact ⟨n, List.mem_cons_self, k, Nat.le_refl k, q, hq, rfl⟩
    · obtain ⟨m, hm, j, hj, q, hq, rfl⟩ := ih h
      exact ⟨m, List.mem_cons_of_mem n hm, j, Nat.le_of_succ_le hj, q, hq, rfl⟩

theorem opened_eq_zero (hb : e.isBare) : ∀ p ∈ e.places, p.opened = 0 := by
  induction e with
  | condition c => simp [places]
  | composite ns ih =>
    intro p hp
    obtain ⟨n, hn, j, -, q, hq, rfl⟩ := exists_of_mem_placesFrom hp
    exact ih n hn (isBare_composite.mp hb n hn) q hq
  | group _ | constant _ _ | foreign _ => cases hb

theorem exists_places (hl : e.isLaidOut) (hb : e.isBare) : ∃ p ps, e.places = p :: ps ∧
    (∀ outer, p.connective outer = outer) ∧
    ∀ q ∈ ps, ∃ c, ∀ outer, q.connective outer = some c := by
  induction e with
  | condition c => exact ⟨_, [], rfl, fun _ => rfl, nofun⟩
  | composite ns ih =>
    obtain ⟨hf, hl⟩ := isLaidOut_composite.mp hl
    obtain ⟨n, ms, rfl, -, hs⟩ := layoutFault?_eq_none_iff.mp hf
    have hb := isBare_composite.mp hb
    obtain ⟨p, ps, hp, hj, hq⟩ :=
      ih n List.mem_cons_self (hl n List.mem_cons_self) (hb n List.mem_cons_self)
    refine ⟨p.inEntry 0 n.connective, ps.map (.inEntry 0 n.connective) ++ placesFrom 1 ms, ?_, ?_,
      fun q hk => ?_⟩
    · rw [places, placesFrom, hp]
      rfl
    · exact fun outer => (Place.connective_inEntry_zero outer _ p).trans (hj outer)
    · rcases List.mem_append.mp hk with hk | hk
      · obtain ⟨r, hr, rfl⟩ := List.mem_map.mp hk
        obtain ⟨c, hc⟩ := hq r hr
        exact ⟨c, fun outer => (Place.connective_inEntry_zero outer _ r).trans (hc outer)⟩
      · obtain ⟨m, hm, j, hj, r, hr, rfl⟩ := exists_of_mem_placesFrom hk
        obtain ⟨k, rfl⟩ := Nat.exists_eq_add_of_le' hj
        obtain ⟨s, ss, hss, hh, ht⟩ := ih m (List.mem_cons_of_mem n hm)
          (hl m (List.mem_cons_of_mem n hm)) (hb m (List.mem_cons_of_mem n hm))
        obtain ⟨c, hc⟩ := Option.isSome_iff_exists.mp (hs m hm)
        rw [hss] at hr
        -- the first condition of a later node takes over the connective of the node
        rcases List.mem_cons.mp hr with rfl | hr
        · exact ⟨c, fun outer => (Place.connective_inEntry_succ outer _ k r).trans (hc ▸ hh _)⟩
        · obtain ⟨d, hd⟩ := ht r hr
          exact ⟨d, fun outer => (Place.connective_inEntry_succ outer _ k r).trans (hd _)⟩
  | group _ | constant _ _ | foreign _ => cases hb

end Expr

/-- A way of writing expressions in which the nodes of a composite stand one after another, with
something between them that depends on the connective alone. -/
structure Writing (α : Type) where
  write : Expr → List α
  between : Option Connective → List α
  write_composite : ∀ n ns, write (.composite (n :: ns)) =
    write n.child ++ ns.flatMap fun m => between m.connective ++ write m.child

namespace Writing

variable {α : Type} (w : Writing α) {e : Expr}

def link (outer : Option Connective) (p : Place) : List α :=
  w.between (p.connective outer) ++ w.write (.condition p.condition)

theorem flatMap_link_placesFrom {ns : List (Node Expr)}
    (h : ∀ n ∈ ns, ∀ outer, n.child.places.flatMap (w.link outer) =
      w.between outer ++ w.write n.child) (k : Nat) (outer : Option Connective) :
    (Expr.placesFrom (k + 1) ns).flatMap (w.link outer) =
      ns.flatMap fun n => w.between n.connective ++ w.write n.child := by
  induction ns generalizing k with
  | nil => rfl
  | cons n ns ih =>
    obtain ⟨hn, hs⟩ := List.forall_mem_cons.mp h
    have hc : ∀ p, w.link outer (p.inEntry (k + 1) n.connective) = w.link n.connective p := by
      intro p
      rw [link, Place.connective_inEntry_succ]
      rfl
    rw [Expr.placesFrom, List.flatMap_append, List.flatMap_map, ih hs, List.flatMap_cons]
    simp only [hc]
    rw [hn]

theorem flatMap_link_places (hl : e.isLaidOut) (hb : e.isBare) (outer : Option Connective) :
    e.places.flatMap (w.link outer) = w.between outer ++ w.write e := by
  -- the connective of a composite goes over to its first condition, at any depth
  induction e generalizing outer with
  | condition c => simp [Expr.places, link, Place.connective]
  | composite ns ih =>
    obtain ⟨hf, hl⟩ := Expr.isLaidOut_composite.mp hl
    obtain ⟨n, ms, rfl, -, -⟩ := Expr.layoutFault?_eq_none_iff.mp hf
    have hb := Expr.isBare_composite.mp hb
    have hn : ∀ m ∈ n :: ms, ∀ outer, m.child.places.flatMap (w.link outer) =
        w.between outer ++ w.write m.child := fun m hm => ih m hm (hl m hm) (hb m hm)
    obtain ⟨hh, ht⟩ := List.forall_mem_cons.mp hn
    have hc : ∀ p, w.link outer (p.inEntry 0 n.connective) = w.link outer p := by
      intro p
      rw [link, Place.connective_inEntry_zero]
      rfl
    rw [Expr.places, Expr.placesFrom, List.flatMap_append, List.flatMap_map,
      w.flatMap_link_placesFrom ht, w.write_composite, ← List.append_assoc]
    simp only [hc]
    rw [hh]
  | group _ | constant _ _ | foreign _ => cases hb

theorem write_assemble (p : Place) (ps : List Place) : w.write (Expr.assemble (p :: ps)) =
    w.write (.condition p.flat) ++
      ps.flatMap fun q => w.between (some q.joiner) ++ w.write (.condition q.flat) := by
  cases ps with
  | nil => simp [Expr.assemble]
  | cons q ps => rw [Expr.assemble, w.write_composite, List.flatMap_map]

theorem write_flatForm (hl : e.isLaidOut) (hb : e.isBare)
    (hf : ∀ p ∈ e.places, p.flat = p.condition) : w.write e.flatForm = w.write e := by
  obtain ⟨p, ps, hp, hh, ht⟩ := Expr.exists_places hl hb
  have he : w.write e = w.write (.condition p.condition) ++ ps.flatMap (w.link none) := by
    have h := w.flatMap_link_places hl hb none
    rw [hp, List.flatMap_cons, link, hh, List.append_assoc] at h
    exact (List.append_cancel_left h).symm
  have hj : ∀ q ∈ ps, w.between (some q.joiner) ++ w.write (.condition q.flat) = w.link none q := by
    intro q hq
    obtain ⟨c, hc⟩ := ht q hq
    rw [link, Place.joiner, hc, hf q (hp ▸ List.mem_cons_of_mem p hq), Option.getD_some]
  have hflat : e.flatForm = Expr.assemble (p :: ps) := by
    rw [Expr.flatForm, hp]
    rintro label rfl
    cases hb
  rw [hflat, write_assemble, List.flatMap_congr hj, hf p (hp ▸ List.mem_cons_self), he]

end Writing

namespace Inline

def writing : Writing Token where
  write := tokens
  between c := [.connective c]
  write_composite n ns := by
    rw [tokens, firstTokens, laterTokens_eq_flatMap]
    rfl

end Inline

namespace Expr

theorem readableRest_eq_flatMap (ns : List (Node Expr)) : (readableRest ns).toList =
    ns.flatMap fun n => (readableJoiner n.connective).toList ++ n.child.readableText.toList := by
  induction ns with
  | nil => rfl
  | cons n ns ih =>
    rw [readableRest, String.toList_append, String.toList_append, ih, List.flatMap_cons]

def readableWriting : Writing Char where
  write e := e.readableText.toList
  between c := (readableJoiner c).toList
  write_composite n ns := by
    rw [readableText, readableFirst, String.toList_append, readableRest_eq_flatMap]

variable {e : Expr}

theorem flat_eq_condition {p : Place} (ho : p.opened = 0)
    (hk : p.condition.kind = .infer p.condition.value) : p.flat = p.condition := by
  rw [Place.flat, Condition.of, ho, Option.getD_none, ← hk]
  simp

theorem flat_eq_of_isBare (hb : e.isBare) (hk : ∀ c ∈ e.leaves, c.kind = .infer c.value) :
    ∀ p ∈ e.places, p.flat = p.condition := by
  intro p hp
  have hm : p.condition ∈ e.leaves := by
    rw [← places_conditions]
    exact List.mem_map_of_mem hp
  exact flat_eq_condition (opened_eq_zero hb p hp) (hk _ hm)

/-- Conditions in nested composites, of kinds that their values look like, have the same text in
every dialect and the same readable text once they are stored and read back. -/
theorem render_decodeText (hc : e.isComplete) (hl : e.isLaidOut) (hb : e.isBare)
    (hs : e.leaves.all (·.isStorable)) (hk : ∀ c ∈ e.leaves, c.kind = .infer c.value) :
    ∃ s, e.encodeText = .ok s ∧
      (∀ (d : Inline) (lead : String), d.render lead e = .ok (d.text lead e) ∧
        d.render lead (decodeText s) = .ok (d.text lead e)) ∧
      e.readable = .ok e.readableText ∧ (decodeText s).readable = .ok e.readableText := by
  have hd := decodeText_recordText hc hs
  have hf := flat_eq_of_isBare hb hk
  have hcd := obstacle?_eq_none (isComplete_decodeText e.recordText) .noOperator
  have hce := obstacle?_eq_none hc .noOperator
  refine ⟨e.recordText, encodeText_eq hc, fun d lead => ⟨?_, ?_⟩, ?_, ?_⟩
  · rw [Inline.render, hce]
    rfl
  · have ht : Inline.tokens e.flatForm = Inline.tokens e := Inline.writing.write_flatForm hl hb hf
    rw [Inline.render, hcd, hd, guarded, Inline.text, ht]
    rfl
  · rw [readable, hce]
    rfl
  · have ht : e.flatForm.readableText.toList = e.readableText.toList :=
      readableWriting.write_flatForm hl hb hf
    rw [readable, hcd, hd, guarded, String.toList_inj.mp ht]

def largeOrRushed : Expr :=
  composite [⟨none, condition (.greaterThan "amount" "500")⟩,
    ⟨some .or, composite [
      ⟨none, composite [⟨none, condition (.of "class" (some .equals) "vip" none false)⟩,
        ⟨some .and, condition (.equals "rush" "true")⟩]⟩,
      ⟨some .and, condition (.test .oneOf "region" "north, south")⟩]⟩]

theorem largeOrRushed_reads_same : largeOrRushed.isComplete ∧ largeOrRushed.isLaidOut ∧
    largeOrRushed.isBare ∧ largeOrRushed.leaves.all (·.isStorable) ∧
    (∀ c ∈ largeOrRushed.leaves, c.kind = .infer c.value) ∧
    ∃ s, largeOrRushed.encodeText = .ok s ∧ Inline.feel.render "" (decodeText s) = .ok
      ("(amount > 500) or class = \"vip\" and (rush = true) and " ++
        "(region in (\"north\", \"south\"))") := by
  have hc : largeOrRushed.isComplete := by decide
  have hl : largeOrRushed.isLaidOut := by decide
  have hb : largeOrRushed.isBare := by decide
  have hs : largeOrRushed.leaves.all (·.isStorable) := by decide
  have hk : ∀ c ∈ largeOrRushed.leaves, c.kind = .infer c.value := by decide
  obtain ⟨s, he, hr, -⟩ := render_decodeText hc hl hb hs hk
  exact ⟨hc, hl, hb, hs, hk, s, he, (hr Inline.feel "").2⟩

end Expr

end RuleTables
