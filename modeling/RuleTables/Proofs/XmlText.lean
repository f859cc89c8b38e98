import Mathlib.Data.List.TakeWhile
import RuleTables.Document.Xml

namespace RuleTables.Xml

section Codes

theorem append_cons_inj {p : Char → Bool} {xs ys r s : List Char} {a b : Char}
    (hx : ∀ c ∈ xs, p c) (hy : ∀ c ∈ ys, p c) (ha : p a = false) (hb : p b = false)
    (h : xs ++ a :: r = ys ++ b :: s) : xs = ys ∧ a = b ∧ r = s := by
  have stretch : ∀ {zs t : List Char} {d : Char}, (∀ c ∈ zs, p c) → p d = false →
      (zs ++ d :: t).takeWhile p = zs := by
    intro zs t d hz hd
    rw [List.takeWhile_append_of_pos hz, List.takeWhile_cons_of_neg (by simp [hd]),
      List.append_nil]
  have hs : xs = ys := by rw [← stretch hx ha, h, stretch hy hb]
  subst hs
  exact ⟨rfl, List.cons.inj (List.append_cancel_left h)⟩

/-- Words that can be told apart whatever follows can be told apart one after the other, as long
as what follows the last of them does not begin with a word. -/
theorem flatMap_append_inj {α : Type} {w : α → List Char} {xs ys : List α} {r s : List Char}
    (hw : ∀ x ∈ xs, ∀ y ∈ ys, ∀ r s, w x ++ r = w y ++ s → x = y ∧ r = s)
    (hr : ∀ y ∈ ys, ¬ w y <+: r) (hs : ∀ x ∈ xs, ¬ w x <+: s)
    (h : xs.flatMap w ++ r = ys.flatMap w ++ s) : xs = ys ∧ r = s := by
  induction xs generalizing ys with
  | nil =>
    cases ys with
    | nil => exact ⟨rfl, h⟩
    | cons y ys =>
      rw [List.flatMap_cons, List.append_assoc] at h
      exact absurd ⟨_, h.symm⟩ (hr y List.mem_cons_self)
  | cons x xs ih =>
    rw [List.flatMap_cons, List.append_assoc] at h
    cases ys with
    | nil => exact absurd ⟨_, h⟩ (hs x List.mem_cons_self)
    | cons y ys =>
      rw [List.flatMap_cons, List.append_assoc] at h
      obtain ⟨hxy, ht⟩ := hw x List.mem_cons_self y List.mem_cons_self _ _ h
      obtain ⟨hl, hrs⟩ := ih
        (fun x hx y hy => hw x (List.mem_cons_of_mem _ hx) y (List.mem_cons_of_mem _ hy))
        (fun y hy => hr y (List.mem_cons_of_mem _ hy))
        (fun x hx => hs x (List.mem_cons_of_mem _ hx)) ht
      exact ⟨by rw [hxy, hl], hrs⟩

theorem not_prefix_cons {w t : List Char} {c : Char} (hn : w ≠ []) (hc : c ∉ w) :
    ¬ w <+: c :: t := by
  obtain ⟨d, w, rfl⟩ := List.exists_cons_of_ne_nil hn
  intro h
  have hd : d = c := (List.cons_prefix_cons.mp h).1
  exact hc (hd ▸ List.mem_cons_self)

end Codes

section Escapes

def references : List (List Char × Char) :=
  [(['a', 'm', 'p', ';'], '&'), (['l', 't', ';'], '<'), (['g', 't', ';'], '>'),
    (['q', 'u', 'o', 't', ';'], '\x22'), (['#', '9', ';'], '\t'), (['#', '1', '0', ';'], '\n'),
    (['#', '1', '3', ';'], '\r')]

def readChar? : List Char → Option (Char × List Char)
  | [] => none
  | c :: r =>
    if c = '&' then
      references.findSome? fun n => if n.1.isPrefixOf r then some (n.2, r.drop n.1.length) else none
    else some (c, r)

variable {c d : Char} {r s : List Char}

theorem readChar?_escapeText (c : Char) (r : List Char) :
    readChar? (escapeText c ++ r) = some (c, r) := by
  unfold escapeText
  split
  · rfl
  · rfl
  · rfl
  · rfl
  · next h _ _ _ => rw [List.singleton_append, readChar?, if_neg h]

theorem readChar?_escapeAttribute (c : Char) (r : List Char) :
    readChar? (escapeAttribute c ++ r) = some (c, r) := by
  unfold escapeAttribute
  split
  · rfl
  · rfl
  · rfl
  · exact readChar?_escapeText _ r

theorem escapeText_append_inj (h : escapeText c ++ r = escapeText d ++ s) : c = d ∧ r = s := by
  have hr := congrArg readChar? h
  rw [readChar?_escapeText, readChar?_escapeText] at hr
  exact Prod.mk.inj (Option.some.inj hr)

theorem escapeAttribute_append_inj (h : escapeAttribute c ++ r = escapeAttribute d ++ s) :
    c = d ∧ r = s := by
  have hr := congrArg readChar? h
  rw [readChar?_escapeAttribute, readChar?_escapeAttribute] at hr
  exact Prod.mk.inj (Option.some.inj hr)

theorem escapeText_ne_nil (c : Char) : escapeText c ≠ [] := by
  intro h
  have hr := readChar?_escapeText c []
  rw [h] at hr
  cases hr

theorem escapeAttribute_ne_nil (c : Char) : escapeAttribute c ≠ [] := by
  intro h
  have hr := readChar?_escapeAttribute c []
  rw [h] at hr
  cases hr

theorem lt_not_mem_escapeText (c : Char) : '<' ∉ escapeText c := by
  unfold escapeText
  split
  · decide
  · decide
  · decide
  · decide
  · next _ h _ _ => simpa using fun he => h he.symm

theorem quote_not_mem_escapeText (h : c ≠ '\x22') : '\x22' ∉ escapeText c := by
  unfold escapeText
  split
  · decide
  · decide
  · decide
  · decide
  · simpa using h.symm

theorem quote_not_mem_escapeAttribute (c : Char) : '\x22' ∉ escapeAttribute c := by
  unfold escapeAttribute
  split
  · decide
  · decide
  · decide
  · next h _ _ => exact quote_not_mem_escapeText h

end Escapes

def isNameChar (c : Char) : Bool :=
  ! ['/', '=', '>', ' '].contains c

def isName (s : String) : Bool :=
  !s.isEmpty && s.toList.all isNameChar

section Tags

variable {r s : List Char}

theorem isNameChar_of_isName {t : String} (h : isName t) : ∀ c ∈ t.toList, isNameChar c := by
  rw [isName, Bool.and_eq_true, List.all_eq_true] at h
  exact h.2

theorem attributeText_append_inj {a b : String × String} (ha : isName a.1) (hb : isName b.1)
    (h : attributeText a ++ r = attributeText b ++ s) : a = b ∧ r = s := by
  -- the name ends before the sign `=`, and the value before the second quote
  have quote : ∀ (t : List Char) (c : Char), ¬ escapeAttribute c <+: '\x22' :: t := fun t c =>
    not_prefix_cons (escapeAttribute_ne_nil c) (quote_not_mem_escapeAttribute c)
  simp only [attributeText, List.cons_append, List.append_assoc, List.cons.injEq, true_and] at h
  obtain ⟨hn, -, hv⟩ := append_cons_inj (p := isNameChar) (isNameChar_of_isName ha)
    (isNameChar_of_isName hb) (by decide) (by decide) h
  obtain ⟨hl, ht⟩ := flatMap_append_inj (fun _ _ _ _ _ _ => escapeAttribute_append_inj)
    (fun c _ => quote _ c) (fun c _ => quote _ c) (List.cons.inj hv).2
  exact ⟨Prod.ext (String.toList_inj.mp hn) (String.toList_inj.mp hl), (List.cons.inj ht).2⟩

theorem openTag_append_inj {t u : String} {as bs : List (String × String)} {c d : Char}
    (ht : isName t) (hu : isName u) (ha : ∀ a ∈ as, isName a.1) (hb : ∀ b ∈ bs, isName b.1)
    (hc : c ∈ ['/', '>']) (hd : d ∈ ['/', '>'])
    (h : openTag t as ++ c :: r = openTag u bs ++ d :: s) : t = u ∧ as = bs ∧ c = d ∧ r = s := by
  have next : ∀ (as : List (String × String)) (c : Char) (r : List Char), c ∈ ['/', '>'] →
      ∃ x y, as.flatMap attributeText ++ c :: r = x :: y ∧ isNameChar x = false := by
    intro as c r hc
    cases as with
    | nil => exact ⟨c, r, rfl, by simp at hc; rcases hc with rfl | rfl <;> decide⟩
    | cons a as => exact ⟨' ', _, rfl, by decide⟩
  have apart : ∀ (b : String × String) (c : Char) (r : List Char), c ∈ ['/', '>'] →
      ¬ attributeText b <+: c :: r := by
    intro b c r hc hp
    rw [(List.cons_prefix_cons.mp hp).1.symm] at hc
    simp at hc
  simp only [openTag, List.cons_append, List.append_assoc, List.cons.injEq, true_and] at h
  obtain ⟨x, y, hx, hxn⟩ := next as c r hc
  obtain ⟨z, w, hz, hzn⟩ := next bs d s hd
  rw [hx, hz] at h
  obtain ⟨hn, hxz, hyw⟩ := append_cons_inj (isNameChar_of_isName ht) (isNameChar_of_isName hu)
    hxn hzn h
  have hr : as.flatMap attributeText ++ c :: r = bs.flatMap attributeText ++ d :: s := by
    rw [hx, hz, hxz, hyw]
  obtain ⟨hl, hcr⟩ := flatMap_append_inj
    (fun a hm b hk _ _ => attributeText_append_inj (ha a hm) (hb b hk))
    (fun b _ => apart b c r hc) (fun a _ => apart a d s hd) hr
  exact ⟨String.toList_inj.mp hn, hl, List.cons.inj hcr⟩

end Tags

section Elements

namespace Element

def tag : Element → String
  | text t _ _ => t
  | parent t _ _ => t

def attributes : Element → List (String × String)
  | text _ as _ => as
  | parent _ as _ => as

/-- Tags and attributes have proper names, in the element and in all elements in it. -/
inductive IsNamed : Element → Prop
  | text {t : String} {as : List (String × String)} {content : String} (ht : isName t)
    (ha : ∀ a ∈ as, isName a.1) : IsNamed (.text t as content)
  | parent {t : String} {as : List (String × String)} {es : List Element} (ht : isName t)
    (ha : ∀ a ∈ as, isName a.1) (he : ∀ e ∈ es, IsNamed e) : IsNamed (.parent t as es)

end Element

def line (pretty : Bool) (depth : Nat) (e : Element) : List Char :=
  newLine pretty depth ++ write pretty depth e

theorem writeLater_eq_flatMap (pretty : Bool) (depth : Nat) (es : List Element) :
    writeLater pretty depth es = es.flatMap (line pretty depth) := by
  induction es with
  | nil => rfl
  | cons e es ih => rw [writeLater, ih, List.flatMap_cons, line]

def body (pretty : Bool) (depth : Nat) : Element → List Char
  | .text t _ content => '>' :: (content.toList.flatMap escapeText ++ closeTag t)
  | .parent _ _ [] => ['/', '>']
  | .parent t _ (e :: es) =>
    '>' :: ((e :: es).flatMap (line pretty (depth + 1)) ++ (newLine pretty depth ++ closeTag t))

variable {pretty : Bool} {depth : Nat} {e f : Element} {r s : List Char}

theorem write_eq (pretty : Bool) (depth : Nat) (e : Element) :
    write pretty depth e = openTag e.tag e.attributes ++ body pretty depth e := by
  cases e with
  | text t as content =>
    rw [write]
    simp [body, Element.tag, Element.attributes]
  | parent t as es =>
    cases es with
    | nil => rfl
    | cons e es =>
      rw [write, writeLater_eq_flatMap]
      simp [body, line, Element.tag, Element.attributes]

theorem exists_body (pretty : Bool) (depth : Nat) (e : Element) :
    ∃ c t, c ∈ ['/', '>'] ∧ body pretty depth e = c :: t := by
  cases e with
  | text t as content => exact ⟨'>', _, by simp, rfl⟩
  | parent t as es =>
    cases es with
    | nil => exact ⟨'/', _, by simp, rfl⟩
    | cons e es => exact ⟨'>', _, by simp, rfl⟩

theorem Element.IsNamed.names (he : e.IsNamed) :
    isName e.tag ∧ ∀ a ∈ e.attributes, isName a.1 := by
  cases he with
  | text ht ha => exact ⟨ht, ha⟩
  | parent ht ha _ => exact ⟨ht, ha⟩

theorem body_of_write (he : e.IsNamed) (hf : f.IsNamed)
    (h : write pretty depth e ++ r = write pretty depth f ++ s) : e.tag = f.tag ∧
      e.attributes = f.attributes ∧ body pretty depth e ++ r = body pretty depth f ++ s := by
  obtain ⟨c, x, hc, hx⟩ := exists_body pretty depth e
  obtain ⟨d, y, hd, hy⟩ := exists_body pretty depth f
  rw [write_eq, write_eq, List.append_assoc, List.append_assoc, hx, hy] at h
  obtain ⟨ht, ha, hcd, hxy⟩ := openTag_append_inj he.names.1 hf.names.1 he.names.2 hf.names.2
    hc hd h
  exact ⟨ht, ha, by rw [hx, hy, hcd]; exact congrArg (d :: ·) hxy⟩

theorem lt_not_mem_newLine (pretty : Bool) (depth : Nat) : '<' ∉ newLine pretty depth := by
  cases pretty <;> simp [newLine]

theorem exists_line (pretty : Bool) (depth : Nat) (he : e.IsNamed) :
    ∃ c t, isNameChar c ∧ line pretty depth e = newLine pretty depth ++ '<' :: c :: t := by
  have hn := he.names.1
  rw [isName, Bool.and_eq_true, Bool.not_eq_true', List.all_eq_true] at hn
  cases ht : e.tag.toList with
  | nil => simp [String.toList_eq_nil_iff.mp ht] at hn
  | cons c t =>
    refine ⟨c, t ++ e.attributes.flatMap attributeText ++ body pretty depth e,
      hn.2 c (by simp [ht]), ?_⟩
    rw [line, write_eq, openTag, ht]
    rfl

theorem open_ne_close {xs ys : List Char} {c : Char} (hx : '<' ∉ xs) (hy : '<' ∉ ys)
    (hc : isNameChar c) : xs ++ '<' :: c :: r ≠ ys ++ '<' :: '/' :: s := by
  intro h
  obtain ⟨-, -, hr⟩ := append_cons_inj (p := (· ≠ '<'))
    (fun d hd => decide_eq_true fun he : d = '<' => hx (he ▸ hd))
    (fun d hd => decide_eq_true fun he : d = '<' => hy (he ▸ hd)) (by simp) (by simp) h
  rw [(List.cons.inj hr).1] at hc
  exact absurd hc (by decide)

theorem children_ne_content {es : List Element} {content : String} {t : String}
    (he : e.IsNamed) :
    (e :: es).flatMap (line pretty depth) ++ r ≠
      content.toList.flatMap escapeText ++ (closeTag t ++ s) := by
  obtain ⟨c, w, hc, hw⟩ := exists_line pretty depth he
  have hx : '<' ∉ content.toList.flatMap escapeText := by
    simpa using fun c _ => lt_not_mem_escapeText c
  rw [List.flatMap_cons, hw, List.append_assoc, List.append_assoc]
  exact open_ne_close (lt_not_mem_newLine pretty depth) hx hc

theorem children_append_inj {es fs : List Element} {t : String}
    (ih : ∀ e ∈ es, ∀ f, f.IsNamed → ∀ r s,
      write pretty (depth + 1) e ++ r = write pretty (depth + 1) f ++ s → e = f ∧ r = s)
    (he : ∀ e ∈ es, e.IsNamed) (hf : ∀ f ∈ fs, f.IsNamed)
    (h : es.flatMap (line pretty (depth + 1)) ++ (newLine pretty depth ++ (closeTag t ++ r)) =
      fs.flatMap (line pretty (depth + 1)) ++ (newLine pretty depth ++ (closeTag t ++ s))) :
    es = fs ∧ r = s := by
  -- no child begins like a closing tag, so the children end where one comes next
  have apart : ∀ (f : Element) (r : List Char), f.IsNamed →
      ¬ line pretty (depth + 1) f <+: newLine pretty depth ++ (closeTag t ++ r) := by
    rintro f r hf ⟨y, hy⟩
    obtain ⟨c, w, hc, hw⟩ := exists_line pretty (depth + 1) hf
    rw [hw, List.append_assoc] at hy
    exact open_ne_close (lt_not_mem_newLine pretty (depth + 1)) (lt_not_mem_newLine pretty depth)
      hc hy
  obtain ⟨hl, ht⟩ := flatMap_append_inj
    (fun e hm f hk r s h => ih e hm f (hf f hk) r s (by
      rw [line, line, List.append_assoc, List.append_assoc] at h
      exact List.append_cancel_left h))
    (fun f hk => apart f r (hf f hk)) (fun e hm => apart e s (he e hm)) h
  exact ⟨hl, List.append_cancel_left (List.append_cancel_left ht)⟩

theorem content_append_inj {content content' : String} {t : String}
    (h : content.toList.flatMap escapeText ++ (closeTag t ++ r) =
      content'.toList.flatMap escapeText ++ (closeTag t ++ s)) : content = content' ∧ r = s := by
  have apart : ∀ (r : List Char) (c : Char), ¬ escapeText c <+: closeTag t ++ r := fun r c =>
    not_prefix_cons (escapeText_ne_nil c) (lt_not_mem_escapeText c)
  obtain ⟨hc, ht⟩ := flatMap_append_inj (fun _ _ _ _ _ _ => escapeText_append_inj)
    (fun c _ => apart r c) (fun c _ => apart s c) h
  exact ⟨String.toList_inj.mp hc, List.append_cancel_left ht⟩

/-- Two texts that begin with elements and are alike begin with the same element. -/
theorem write_append_inj (he : e.IsNamed) (hf : f.IsNamed)
    (h : write pretty depth e ++ r = write pretty depth f ++ s) : e = f ∧ r = s := by
  induction he generalizing f depth r s with
  | @text t as content ht ha =>
    obtain ⟨htag, hatt, hb⟩ := body_of_write (.text ht ha) hf h
    cases hf with
    | @text u bs content' =>
      obtain ⟨rfl, rfl⟩ : t = u ∧ as = bs := ⟨htag, hatt⟩
      simp only [body, List.cons_append, List.append_assoc, List.cons.injEq, true_and] at hb
      obtain ⟨rfl, hr⟩ := content_append_inj hb
      exact ⟨rfl, hr⟩
    | @parent u bs fs _ _ hfs =>
      cases fs with
      | nil => simp [body] at hb
      | cons f fs =>
        simp only [body, List.cons_append, List.append_assoc, List.cons.injEq, true_and] at hb
        exact absurd hb.symm (children_ne_content (hfs f List.mem_cons_self))
  | @parent t as es ht ha hes ih =>
    obtain ⟨htag, hatt, hb⟩ := body_of_write (.parent ht ha hes) hf h
    cases hf with
    | @text u bs content' =>
      cases es with
      | nil => simp [body] at hb
      | cons e es =>
        simp only [body, List.cons_append, List.append_assoc, List.cons.injEq, true_and] at hb
        exact absurd hb (children_ne_content (hes e List.mem_cons_self))
    | @parent u bs fs _ _ hfs =>
      obtain ⟨rfl, rfl⟩ : t = u ∧ as = bs := ⟨htag, hatt⟩
      cases es with
      | nil =>
        cases fs with
        | nil => simpa [body] using hb
        | cons f fs => simp [body] at hb
      | cons e es =>
        cases fs with
        | nil => simp [body] at hb
        | cons f fs =>
          simp only [body, List.cons_append, List.append_assoc, List.cons.injEq, true_and] at hb
          obtain ⟨hl, hr⟩ := children_append_inj
            (fun e hm f hf r s hw => ih e hm hf hw) hes hfs hb
          exact ⟨by rw [hl], hr⟩

theorem render_inj (he : e.IsNamed) (hf : f.IsNamed) (h : render pretty e = render pretty f) :
    e = f := by
  rw [render, render, String.ofList_inj, List.append_assoc, List.append_assoc] at h
  exact (write_append_inj he hf (List.append_cancel_left h)).1

end Elements

end RuleTables.Xml
