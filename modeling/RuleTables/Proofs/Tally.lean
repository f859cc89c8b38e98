import RuleTables.Service.Meters

namespace RuleTables.Service.Tally

variable {κ ν : Type} [DecidableEq κ]

theorem get_change (j k : κ) (zero : ν) (f : ν → ν) (t : Tally κ ν) :
    get j zero (change k zero f t) = if j = k then f (get k zero t) else get j zero t := by
  induction t with
  | nil =>
    by_cases hj : j = k
    · simp [change, get, hj]
    · simp [change, get, hj, Ne.symm hj]
  | cons e t ih =>
    obtain ⟨i, n⟩ := e
    rw [change, get, get]
    by_cases hk : i = k
    · subst hk
      rw [if_pos rfl, if_pos rfl, get]
      exact ite_congr (propext eq_comm) (fun _ => rfl) fun hj => (if_neg (Ne.symm hj)).symm
    · rw [if_neg hk, if_neg hk, get, ih]
      by_cases hj : i = j
      · rw [if_pos hj, if_pos hj, if_neg fun h => hk (hj.trans h)]
      · rw [if_neg hj, if_neg hj]

theorem get_count (j k : κ) (t : Tally κ Nat) :
    get j 0 (count k t) = get j 0 t + if j = k then 1 else 0 := by
  rw [count, get_change]
  split
  · next h => rw [h]
  · rfl

def total (p : κ → Bool) : Tally κ Nat → Nat
  | [] => 0
  | (k, n) :: rest => (if p k then n else 0) + total p rest

theorem total_count (p : κ → Bool) (k : κ) (t : Tally κ Nat) :
    total p (count k t) = total p t + if p k then 1 else 0 := by
  induction t with
  | nil => simp [count, change, total]
  | cons e t ih =>
    obtain ⟨i, n⟩ := e
    rw [count] at ih ⊢
    rw [change, total]
    by_cases hk : i = k
    · subst hk
      rw [if_pos rfl, total]
      split <;> omega
    · rw [if_neg hk, total, ih, Nat.add_assoc]

end RuleTables.Service.Tally
