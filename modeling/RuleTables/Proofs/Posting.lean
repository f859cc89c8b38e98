import Mathlib.Data.List.TakeWhile
import RuleTables.Proofs.JsonText
import RuleTables.Proofs.Outcome
import RuleTables.Proofs.Transport
import RuleTables.Service.Exchange

namespace RuleTables

theorem Text.Latin.fault?_eq_none_iff {cs : List Char} :
    fault? cs = none ↔ ∀ c ∈ cs, hasOctet c := by
  rw [← List.dropWhile_eq_nil_iff, fault?]
  cases cs.dropWhile hasOctet <;> simp

theorem Text.decodeDetected_encode (cs : List Char) :
    decodeDetected (Utf8.encode ('\x7b' :: doubleQuote :: cs)) =
      some ('\x7b' :: doubleQuote :: cs) := by
  have he : Utf8.encode ('\x7b' :: doubleQuote :: cs) = 0x7b :: 0x22 :: Utf8.encode cs := rfl
  have hd : ∀ os, Encoding.detect (0x7b :: 0x22 :: os) = (.utf8, 0x7b :: 0x22 :: os) := by
    intro os
    match os with
    | [] => rfl
    | [_] => rfl
    | _ :: _ :: _ => rfl
  rw [decodeDetected, he, hd, ← he]
  dsimp only
  rw [Utf8.decode_encode]
  rfl

theorem Json.parseChars_of_parse {s : String} {v : Json} (h : parse s = .ok v) :
    parseChars s.toList = .ok v := by
  rw [parse] at h
  split at h
  · cases h
  · exact h

namespace Service

/-- The body is JSON text of the value, in any encoding and layout, and the headers say so. -/
structure Call.Posts (c : Call) (t : Target) (v : Json) : Prop where
  method : c.method = "POST"
  path : c.path = t.path
  type : isJsonType ((c.header? "content-type").getD "")
  text : ∃ cs, Text.decodeDetected c.body = some cs ∧ Json.parseChars cs = .ok v

def Call.posting (t : Target) (v : Json) : Call where
  method := "POST"
  path := t.path
  headers := [("content-type", "application/json")]
  body := Text.Utf8.encode (v.render Json.compact).toList
  client := ""

theorem Call.isJsonType_posting (t : Target) (v : Json) :
    isJsonType (((posting t v).header? "content-type").getD "") := by
  have hj : isJsonType "application/json" := by decide +kernel
  simpa [posting, header?] using hj

theorem Call.posts_posting (t : Target) {v : Json} (h : v.isPlain)
    (hb : Text.decodeDetected (posting t v).body = some (v.render Json.compact).toList) :
    (posting t v).Posts t v where
  method := rfl
  path := rfl
  type := isJsonType_posting t v
  text := ⟨_, hb, Json.parseChars_of_parse (Json.parse_render Json.isLoose_compact h)⟩

theorem Call.posts_posting_object (t : Target) {m : String × Json} {ms : Json.Members}
    (h : (Json.object (m :: ms)).isPlain) :
    (posting t (.object (m :: ms))).Posts t (.object (m :: ms)) := by
  -- the text begins with a brace and a quote, which tell its encoding
  have hr : ∃ cs, ((Json.object (m :: ms)).render Json.compact).toList =
      '\x7b' :: Text.doubleQuote :: cs := by
    rw [Json.render, String.toList_ofList, Json.write, Json.renderText]
    exact ⟨_, rfl⟩
  obtain ⟨cs, hr⟩ := hr
  refine posts_posting t h ?_
  rw [posting, hr, Text.decodeDetected_encode]

def Posted.ofValue : Json → Posted
  | .null => nothing
  | v => value v

/-- The name of the header for identifiers has an octet for each of its small letters. -/
def asksForNames (s : Settings) : Prop :=
  s.observed → ∀ c ∈ (Text.lower s.requestIdHeader).toList, Text.Latin.hasOctet c

theorem nameReport?_eq_none_iff {s : Settings} : nameReport? s = none ↔ asksForNames s := by
  rw [nameReport?, asksForNames, ← Text.Latin.fault?_eq_none_iff]
  cases s.observed <;> simp

theorem asksForNames_usual : asksForNames .usual :=
  nameReport?_eq_none_iff.mp (Option.isNone_iff_eq_none.mp (by decide +kernel))

section Answers

variable {c : Call} {t : Target} {v : Json}

theorem Call.Posts.body_ne_nil (h : c.Posts t v) : c.body ≠ [] := by
  obtain ⟨cs, hd, hp⟩ := h.text
  intro hb
  rw [hb] at hd
  obtain rfl : [] = cs := Option.some.inj hd
  cases hp

theorem Posted.read_eq (h : c.Posts t v) : Posted.read c = .ok (ofValue v) := by
  obtain ⟨cs, hd, hp⟩ := h.text
  have hb : c.body.isEmpty = false := by simpa using h.body_ne_nil
  rw [Posted.read, hb, if_neg Bool.false_ne_true, if_pos h.type, ofJson, hd]
  dsimp only
  rw [hp]
  cases v <;> rfl

theorem Posted.value?_check {α : Type} {read : Json → Request.Checked α}
    (h : (read .null).value? = none) : ((ofValue v).check read).value? = (read v).value? := by
  unfold check
  rw [Request.Checked.value?_within]
  cases v with
  | null => exact h.symm
  | _ => rfl

theorem Work.withBody_eq {α : Type} (h : c.Posts t v) (read : Json → Request.Checked α)
    (go : α → Work) : withBody read c go = match (Posted.ofValue v).check read with
      | .good a => go a
      | .bad is => failed (.issues is) := by
  have hr : c.read read = match (Posted.ofValue v).check read with
      | .good a => .ok a
      | .bad is => .error (.issues is) := by
    rw [Call.read, Posted.read_eq h]
    rfl
  rw [withBody, hr]
  cases (Posted.ofValue v).check read <;> rfl

theorem Work.withBody_of_value? {α : Type} {read : Json → Request.Checked α} {a : α}
    (hp : c.Posts t v) (hn : (read .null).value? = none) (h : (read v).value? = some a)
    (go : α → Work) : withBody read c go = go a := by
  rw [withBody_eq hp]
  rw [← Posted.value?_check hn] at h
  cases hc : (Posted.ofValue v).check read with
  | good b =>
    rw [hc] at h
    exact congrArg go (Option.some.inj h)
  | bad is =>
    rw [hc] at h
    cases h

theorem Route.find_post (ht : t.methods = ["POST"]) (observed : Bool) :
    Route.find observed "POST" t.path = .target t := by
  cases t with
  | health | meters => exact absurd ht (by decide)
  | _ => cases observed <;> decide

def Trouble.answer (t : Trouble) : Except Report Answer :=
  (settle ⟨"", "", ""⟩ t).1

def Work.answer (w : Work) : Except Report Answer :=
  match w.outcome with
  | .ok a => .ok a
  | .error t => t.answer

theorem settle_fst (x : Context) (t : Trouble) : (settle x t).1 = t.answer := by
  cases t with
  | fault f =>
    rw [Trouble.answer, settle, settle]
    cases f.report.kind.isDomain <;> rfl
  | _ => rfl

theorem finish_fst (x : Context) (w : Work) : (finish x w).1 = w.answer := by
  rw [finish, Work.answer]
  cases w.outcome with
  | ok a => rfl
  | error t => exact settle_fst x t

def reply : Except Report Answer → Nat × String
  | .ok a => (a.status, a.body)
  | .error _ => (500, Answer.failure.body)

theorem status_reply_tell (w : Json) (a : Answer) :
    (reply (tell w a)).1 = if w.isStrict then a.status else 500 := by
  rw [tell]
  split <;> rfl

theorem reply_exchange (s : Settings) (m : Meters) (fresh : String) (h : c.method ≠ "HEAD") :
    ∃ k, ((exchange s m fresh c).answer.status, (exchange s m fresh c).answer.body) =
      reply (Work.ofCall s k c).answer := by
  refine ⟨m.run (observedEvents s [.started (Context.of s fresh c).line]), ?_⟩
  rw [exchange, ← finish_fst (Context.of s fresh c)]
  split
  · next a log ha =>
    rw [ha]
    cases ho : s.observed <;> simp [Answer.forMethod, Answer.identify, h, ho, reply]
  · next r log hr =>
    rw [hr]
    simp only [Answer.forMethod, if_neg h]
    rfl

/-- A posted value is answered as the work of the target is. -/
theorem reply_respond (h : c.Posts t v) (ht : t.methods = ["POST"]) (s : Settings) (m : Meters)
    (fresh : String) (hs : asksForNames s) :
    ∃ k, ((respond s m fresh c).answer.status, (respond s m fresh c).answer.body) =
      reply (Work.ofTarget s k c t).answer := by
  have hm : c.method ≠ "HEAD" := by rw [h.method]; decide
  have hw : ∀ k, Work.ofCall s k c = Work.ofTarget s k c t := fun k => by
    rw [Work.ofCall, h.method, h.path, Route.find_post ht]
  rw [respond, nameReport?_eq_none_iff.mpr hs]
  obtain ⟨k, hk⟩ := reply_exchange s m fresh hm
  exact ⟨k, hk.trans (by rw [hw])⟩

theorem status_respond_of_not (s : Settings) (m : Meters) (fresh : String) (c : Call)
    (hs : ¬ asksForNames s) : (respond s m fresh c).answer.status = 500 := by
  obtain ⟨r, hr⟩ := Option.ne_none_iff_exists'.mp (mt nameReport?_eq_none_iff.mp hs)
  rw [respond, hr]
  dsimp only
  rw [Answer.forMethod]
  split <;> rfl

end Answers

end Service

end RuleTables
