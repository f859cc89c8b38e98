import RuleTables.Proofs.Gate
import RuleTables.Proofs.Posting
import RuleTables.Proofs.RecordStable

namespace RuleTables

namespace Fault

/-- The text is no Base64, or it carries no UTF-8. -/
inductive IsPayload : Fault → Prop
  | base64 (f : Text.Base64.Fault) : IsPayload (.base64 f)
  | utf8 (f : Text.Utf8.Fault) : IsPayload (.utf8 f)

variable {f : Fault}

theorem IsPayload.kind (h : f.IsPayload) : f.kind = .validation := by
  cases h <;> rfl

theorem IsPayload.message (h : f.IsPayload) : f.message = "Invalid Base64 expression payload" := by
  cases h <;> rfl

theorem IsPayload.details (h : f.IsPayload) :
    ∃ reason, f.details = [("reason", .text reason)] := by
  cases h with
  | base64 f => exact ⟨f.message, rfl⟩
  | utf8 f => exact ⟨f.message, rfl⟩

end Fault

namespace Expr

section Decoding

variable {s : String} {f : Fault} {e : Expr}

/-- Some character of the text, without the blanks around it, is outside ASCII. -/
def IsForeignText (s : String) : Prop :=
  ∃ c ∈ Text.trimChars s.toList, 0x80 ≤ c.toNat

theorem base64Records_of_foreign (h : IsForeignText s) : base64Records s = .error .notAscii := by
  have ha : (Text.trimChars s.toList).any (fun c => 0x80 ≤ c.toNat) = true := by
    simpa [IsForeignText] using h
  rw [base64Records]
  simp only [ha, if_true]
  rfl

theorem base64Records_of_not_foreign (h : ¬ IsForeignText s) : base64Records s =
    ((Text.Base64.decode (Text.trimChars s.toList)).mapError .base64 >>= fun octets =>
      (Text.Utf8.decode octets).mapError .utf8 >>= fun chars => .ok (String.ofList chars)) := by
  have ha : (Text.trimChars s.toList).any (fun c => 0x80 ≤ c.toNat) = false := by
    simpa [IsForeignText] using h
  rw [base64Records]
  simp only [ha]
  rfl

theorem isPayload_of_base64Records (hf : ¬ IsForeignText s) (h : base64Records s = .error f) :
    f.IsPayload := by
  rw [base64Records_of_not_foreign hf] at h
  rcases bind_eq_error_iff.mp h with h | ⟨octets, -, h⟩
  · obtain ⟨b, -, rfl⟩ := mapError_eq_error_iff.mp h
    exact .base64 b
  · rcases bind_eq_error_iff.mp h with h | ⟨chars, -, h⟩
    · obtain ⟨u, -, rfl⟩ := mapError_eq_error_iff.mp h
      exact .utf8 u
    · cases h

theorem not_blank_of_foreign (h : IsForeignText s) : Text.allBlank s = false := by
  obtain ⟨c, hc, -⟩ := h
  rw [← Bool.not_eq_true, ← Text.trim_eq_empty_iff, Text.trim, String.ofList_eq_empty_iff]
  exact List.ne_nil_of_mem hc

theorem decodeBase64_error_iff :
    decodeBase64 s = .error f ↔ Text.allBlank s = false ∧ base64Records s = .error f := by
  rw [decodeBase64]
  cases Text.allBlank s with
  | true => simp
  | false => simp [map_eq_error_iff]

theorem decodeBase64_eq_notAscii_iff :
    decodeBase64 s = .error .notAscii ↔ IsForeignText s := by
  rw [decodeBase64_error_iff]
  constructor
  · rintro ⟨-, h⟩
    by_contra hf
    cases isPayload_of_base64Records hf h
  · exact fun h => ⟨not_blank_of_foreign h, base64Records_of_foreign h⟩

theorem isPayload_of_decodeBase64 (hf : ¬ IsForeignText s) (h : decodeBase64 s = .error f) :
    f.IsPayload :=
  isPayload_of_base64Records hf (decodeBase64_error_iff.mp h).2

theorem isComplete_decodeBase64 (h : decodeBase64 s = .ok e) : e.isComplete := by
  rw [decodeBase64] at h
  split at h
  · cases h
    rfl
  · obtain ⟨t, -, rfl⟩ := map_eq_ok_iff.mp h
    exact isComplete_decodeText t

end Decoding

section Missing

variable {t : Option String}

theorem decodeOptionalBase64_cases (t : Option String) :
    (∃ e, decodeOptionalBase64 t = .ok e) ∨
      (∃ f, decodeOptionalBase64 t = .error f ∧ f.IsPayload) ∨
      decodeOptionalBase64 t = .error .notAscii := by
  cases t with
  | none => exact .inl ⟨alwaysTrue, rfl⟩
  | some s =>
    by_cases hf : IsForeignText s
    · exact .inr (.inr (decodeBase64_eq_notAscii_iff.mpr hf))
    · cases hd : decodeBase64 s with
      | ok e => exact .inl ⟨e, hd⟩
      | error f => exact .inr (.inl ⟨f, hd, isPayload_of_decodeBase64 hf hd⟩)

theorem decodeOptionalBase64_eq_notAscii_iff :
    decodeOptionalBase64 t = .error .notAscii ↔ ∃ s, t = some s ∧ IsForeignText s := by
  cases t with
  | none => exact iff_of_false nofun nofun
  | some s => exact decodeBase64_eq_notAscii_iff.trans (by simp)

end Missing

end Expr

namespace Service

open Request

section Statuses

variable {s : Settings} {c : Call} {v : Json} {t : String} {f : Fault}

theorem status_reply_payload (h : f.IsPayload) : (reply (Trouble.fault f).answer).1 = 400 := by
  obtain ⟨reason, hd⟩ := h.details
  have hs : (Json.object f.details).isStrict := by rw [hd]; rfl
  rw [Trouble.answer, settle]
  simp only [Fault.report, h.kind, FaultClass.isDomain, if_true]
  rw [status_reply_tell, if_pos hs]
  rfl

theorem status_reply_notAscii : (reply (Trouble.fault .notAscii).answer).1 = 500 := rfl

theorem decode_base64 (t : String) : Work.decode ⟨none, some t⟩ =
    Work.ofView (Expr.decodeBase64Log t) (Expr.decodeBase64 t >>= Work.decodedJson) := rfl

theorem status_reply_decoded {e : Expr} (h : Expr.decodeBase64 t = .ok e) :
    (reply (Work.decode ⟨none, some t⟩).answer).1 = 200 := by
  have passes := Expr.passesAll_of_isComplete (Expr.isComplete_decodeBase64 h)
  obtain ⟨tree, ht⟩ := passes.tree
  obtain ⟨readable, hr⟩ := passes.readable
  have hd : Expr.decodeBase64 t >>= Work.decodedJson =
      .ok (.object [("expression", tree), ("readable", .text readable)]) :=
    bind_eq_ok_iff.mpr ⟨e, h, by rw [Work.decodedJson, ht, hr]; rfl⟩
  rw [decode_base64, hd]
  rfl

theorem answer_decode_error (h : Expr.decodeBase64 t = .error f) :
    (Work.decode ⟨none, some t⟩).answer = (Trouble.fault f).answer := by
  have hd : Expr.decodeBase64 t >>= Work.decodedJson = .error f :=
    bind_eq_error_iff.mpr (.inl h)
  rw [decode_base64, hd]
  rfl

theorem status_respond_decode (hp : c.Posts .decode v)
    (hb : (DecodeBody.read true v).value? = some ⟨none, some t⟩) (m : Meters) (fresh : String)
    (hs : asksForNames s) : (respond s m fresh c).answer.status =
      (reply (Work.decode ⟨none, some t⟩).answer).1 := by
  obtain ⟨k, hk⟩ := reply_respond hp rfl s m fresh hs
  rw [Work.ofTarget, Work.withBody_of_value? hp rfl hb] at hk
  exact congrArg Prod.fst hk

theorem respond_base64_status (hp : c.Posts .decode v)
    (hb : (DecodeBody.read true v).value? = some ⟨none, some t⟩) (s : Settings) (m : Meters)
    (fresh : String) : ∃ n, (respond s m fresh c).answer.status = n ∧ n ∈ [200, 400, 500] ∧
      (n = 200 ↔ asksForNames s ∧ ∃ e, Expr.decodeBase64 t = .ok e) ∧
      (n = 400 ↔ asksForNames s ∧ ∃ f, Expr.decodeBase64 t = .error f ∧ f.kind = .validation) ∧
      (n = 500 ↔ ¬ asksForNames s ∨ Expr.IsForeignText t) := by
  by_cases hs : asksForNames s
  · rw [status_respond_decode hp hb m fresh hs]
    cases hd : Expr.decodeBase64 t with
    | ok e =>
      have hn : ¬ Expr.IsForeignText t := fun hf => by
        cases hd.symm.trans (Expr.decodeBase64_eq_notAscii_iff.mpr hf)
      refine ⟨200, status_reply_decoded hd, by decide, iff_of_true rfl ⟨hs, e, rfl⟩,
        iff_of_false (by decide) ?_, iff_of_false (by decide) fun h => h.elim (· hs) hn⟩
      rintro ⟨-, f, ⟨⟩, -⟩
    | error f =>
      rw [answer_decode_error hd]
      by_cases hf : Expr.IsForeignText t
      · cases hd.symm.trans (Expr.decodeBase64_eq_notAscii_iff.mpr hf)
        refine ⟨500, status_reply_notAscii, by decide, iff_of_false (by decide) ?_,
          iff_of_false (by decide) ?_, iff_of_true rfl (.inr hf)⟩
        · rintro ⟨-, e, ⟨⟩⟩
        · rintro ⟨-, f, ⟨⟩, ⟨⟩⟩
      · have hp := Expr.isPayload_of_decodeBase64 hf hd
        refine ⟨400, status_reply_payload hp, by decide, iff_of_false (by decide) ?_,
          iff_of_true rfl ⟨hs, f, rfl, hp.kind⟩,
          iff_of_false (by decide) fun h => h.elim (· hs) hf⟩
        rintro ⟨-, e, ⟨⟩⟩
  · rw [status_respond_of_not s m fresh c hs]
    exact ⟨500, rfl, by decide, iff_of_false (by decide) fun h => hs h.1,
      iff_of_false (by decide) fun h => hs h.1, iff_of_true rfl (.inl hs)⟩

end Statuses

/-- Decoding a Base64 text, or none at all, gives an expression or is refused with a reason, but for
a text with a character outside ASCII, which is a fault of another class. The service answers a
posted text accordingly, and such a text with no more than that something failed. -/
theorem base64_refused_or_foreign (t : Option String) :
    ((∃ e, Expr.decodeOptionalBase64 t = .ok e) ∨
      (∃ f, Expr.decodeOptionalBase64 t = .error f ∧ f.kind = .validation ∧
        f.message = "Invalid Base64 expression payload" ∧
        ∃ reason, f.details = [("reason", .text reason)]) ∨
      Expr.decodeOptionalBase64 t = .error .notAscii) ∧
    (Expr.decodeOptionalBase64 t = .error .notAscii ↔
      ∃ s, t = some s ∧ Expr.IsForeignText s) ∧
    ∀ s, t = some s → ∀ c v, Call.Posts c .decode v →
      (DecodeBody.read true v).value? = some ⟨none, some s⟩ → ∀ settings m fresh,
      ∃ n, (respond settings m fresh c).answer.status = n ∧ n ∈ [200, 400, 500] ∧
        (n = 200 ↔ asksForNames settings ∧ ∃ e, Expr.decodeBase64 s = .ok e) ∧
        (n = 400 ↔ asksForNames settings ∧
          ∃ f, Expr.decodeBase64 s = .error f ∧ f.kind = .validation) ∧
        (n = 500 ↔ ¬ asksForNames settings ∨ Expr.IsForeignText s) := by
  refine ⟨?_, Expr.decodeOptionalBase64_eq_notAscii_iff, fun s _ c v hp hb settings m fresh =>
    respond_base64_status hp hb settings m fresh⟩
  obtain h | ⟨f, hf, hp⟩ | h := Expr.decodeOptionalBase64_cases t
  · exact .inl h
  · exact .inr (.inl ⟨f, hf, hp.kind, hp.message, hp.details⟩)
  · exact .inr (.inr h)

def base64Body (t : String) : Json :=
  .object [("base64", .text t)]

theorem read_base64Body (t : String) :
    (DecodeBody.read true (base64Body t)).value? = some ⟨none, some t⟩ := rfl

theorem posts_base64Body (t : String) :
    (Call.posting .decode (base64Body t)).Posts .decode (base64Body t) :=
  Call.posts_posting_object .decode rfl

theorem loneLetter_answered :
    (respond .usual .zero "" (.posting .decode (base64Body "Q"))).answer.status = 400 := by
  obtain ⟨-, -, hr⟩ := base64_refused_or_foreign (some "Q")
  obtain ⟨n, hn, -, -, h400, -⟩ := hr "Q" rfl _ _ (posts_base64Body "Q") (read_base64Body "Q")
    .usual .zero ""
  exact hn.trans (h400.mpr ⟨asksForNames_usual, _, rfl, rfl⟩)

/-- A letter outside ASCII is not refused. -/
theorem umlaut_fails : Expr.decodeBase64 "ä" = .error .notAscii ∧
    Fault.notAscii.kind = .value ∧
    (respond .usual .zero "" (.posting .decode (base64Body "ä"))).answer.status = 500 := by
  have hf : Expr.IsForeignText "ä" := ⟨'ä', by decide, by decide⟩
  obtain ⟨n, hn, -, -, -, h500⟩ := respond_base64_status (posts_base64Body "ä")
    (read_base64Body "ä") .usual .zero ""
  exact ⟨Expr.decodeBase64_eq_notAscii_iff.mpr hf, rfl, hn.trans (h500.mpr (.inr hf))⟩

end Service

end RuleTables
