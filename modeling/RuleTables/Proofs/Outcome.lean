import RuleTables.Expr.Basic
import RuleTables.Request.Field

namespace RuleTables

variable {ε α β : Type} {x : Except ε α}

theorem bind_eq_ok_iff {f : α → Except ε β} {b : β} :
    x >>= f = .ok b ↔ ∃ a, x = .ok a ∧ f a = .ok b := by
  cases x with
  | error e => exact ⟨nofun, nofun⟩
  | ok a => exact ⟨fun h => ⟨a, rfl, h⟩, fun ⟨_, ha, hb⟩ => Except.ok.inj ha ▸ hb⟩

theorem map_eq_ok_iff {f : α → β} {b : β} : x.map f = .ok b ↔ ∃ a, x = .ok a ∧ f a = b := by
  cases x with
  | error e => exact ⟨nofun, nofun⟩
  | ok a => simp [Except.map]

theorem mapError_eq_ok_iff {δ : Type} {f : ε → δ} {a : α} : x.mapError f = .ok a ↔ x = .ok a := by
  cases x with
  | error e => exact ⟨nofun, nofun⟩
  | ok b => exact ⟨fun h => congrArg _ (Except.ok.inj h), fun h => congrArg _ (Except.ok.inj h)⟩

theorem bind_eq_error_iff {f : α → Except ε β} {e : ε} :
    x >>= f = .error e ↔ x = .error e ∨ ∃ a, x = .ok a ∧ f a = .error e := by
  cases x with
  | error d => simp [bind, Except.bind]
  | ok a => simp [bind, Except.bind]

theorem map_eq_error_iff {f : α → β} {e : ε} : x.map f = .error e ↔ x = .error e := by
  cases x <;> simp [Except.map]

theorem mapError_eq_error_iff {δ : Type} {f : ε → δ} {d : δ} :
    x.mapError f = .error d ↔ ∃ e, x = .error e ∧ f e = d := by
  cases x with
  | error e =>
    constructor
    · exact fun h => ⟨e, rfl, Except.error.inj h⟩
    · rintro ⟨_, ⟨⟩, rfl⟩
      rfl
  | ok a => exact ⟨nofun, nofun⟩

theorem mapError_bind {δ : Type} (t : ε → δ) (x : Except ε α) (f : α → Except ε β) :
    (x >>= f).mapError t = x.mapError t >>= fun a => (f a).mapError t := by
  cases x <;> rfl

theorem exists_of_isOk (h : x.isOk) : ∃ a, x = .ok a := by
  cases x with
  | error e => cases h
  | ok a => exact ⟨a, rfl⟩

theorem Expr.guarded_eq_ok_iff {obstacle : Option Fault} {a b : α} :
    guarded obstacle a = .ok b ↔ obstacle = none ∧ a = b := by
  cases obstacle <;> simp [guarded]

namespace Request

variable {α β : Type}

/-- What was read, if there are no issues. -/
def Checked.value? : Checked α → Option α
  | .good a => some a
  | .bad _ => none

namespace Checked

@[simp] theorem value?_map (f : α → β) (c : Checked α) : (f <$> c).value? = c.value?.map f := by
  cases c <;> rfl

@[simp] theorem value?_seq (f : Checked (α → β)) (c : Checked α) :
    (f <*> c).value? = f.value?.bind fun g => c.value?.map g := by
  cases f <;> cases c <;> rfl

@[simp] theorem value?_within (p : Place) (c : Checked α) : (c.within p).value? = c.value? := by
  cases c <;> rfl

end Checked

theorem value?_field (names : List String) (read : Json → Checked α) (usual : Option α)
    (ms : Json.Members) : (field names read usual ms).value? =
      (findFirst names ms).elim usual fun m => (read m.2).value? := by
  unfold field
  cases findFirst names ms with
  | some m => exact Checked.value?_within ..
  | none => cases usual <;> rfl

end Request

end RuleTables
