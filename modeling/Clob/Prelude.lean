/-!
# Prelude

Powers of naturals and of integers are the core's `Nat.pow` and `Int.pow` throughout, also in
modules that import Mathlib: the definitions that run are compiled without Mathlib, and a
statement about them has to name the same terms wherever it is read. Mathlib makes its monoid
power the default for a numeral exponent; these two attributes put the core power first again.

The library's results are `Except` values. Two of them are equal when they take the same branch
with equal payloads, so a result on a fixed input can be decided. A mapped result fails exactly
with the fault it mapped, and mapping a list through `Except` stops at the first element that
faults (`Except.mapM_eq_error_iff`).
-/

attribute [instance (high)] instPowNat
attribute [default_instance 20000] instPowNat

namespace Clob

instance instDecidableEqExcept {ε α : Type} [DecidableEq ε] [DecidableEq α] :
    DecidableEq (Except ε α)
  | .error a, .error b => decidable_of_iff (a = b) (by simp)
  | .ok a, .ok b => decidable_of_iff (a = b) (by simp)
  | .error _, .ok _ => isFalse (by simp)
  | .ok _, .error _ => isFalse (by simp)

namespace Except

section Map

variable {ε α β : Type} {g : α → β} {x : Except ε α}

theorem map_eq_error_iff {f : ε} : x.map g = .error f ↔ x = .error f := by
  cases x <;> simp [Except.map]

theorem map_eq_ok_iff {b : β} : x.map g = .ok b ↔ ∃ a, x = .ok a ∧ g a = b := by
  cases x <;> simp [Except.map]

end Map

section MapM

variable {α β ε : Type} {g : α → Except ε β}

theorem mapM_eq_map {k : α → β} {xs : List α} (h : ∀ x ∈ xs, g x = .ok (k x)) :
    xs.mapM g = .ok (xs.map k) := by
  induction xs with
  | nil => rfl
  | cons x xs ih =>
      rw [List.mapM_cons, h x List.mem_cons_self, ih fun y hy => h y (List.mem_cons_of_mem _ hy)]
      rfl

theorem isOk_of_mapM_eq_ok {xs : List α} {ys : List β} (h : xs.mapM g = .ok ys) :
    ∀ x ∈ xs, ∃ y, g x = .ok y := by
  induction xs generalizing ys with
  | nil => simp
  | cons x xs ih =>
      rw [List.mapM_cons] at h
      cases hx : g x with
      | error e => simp [hx, bind, Except.bind] at h
      | ok y =>
          cases hrest : xs.mapM g with
          | error e => simp [hx, hrest, bind, Except.bind] at h
          | ok ys' =>
              intro z hz
              rcases List.mem_cons.mp hz with rfl | hz
              · exact ⟨y, hx⟩
              · exact ih hrest z hz

theorem mapM_eq_error_iff {xs : List α} {e : ε} :
    xs.mapM g = .error e ↔
      ∃ pre x post, xs = pre ++ x :: post ∧ (∀ y ∈ pre, ∃ b, g y = .ok b) ∧ g x = .error e := by
  induction xs with
  | nil => simp [pure, Except.pure]
  | cons x xs ih =>
      rw [List.mapM_cons]
      cases hx : g x with
      | error e' =>
          simp only [bind, Except.bind, Except.error.injEq]
          constructor
          · rintro rfl
            exact ⟨[], x, xs, rfl, by simp, hx⟩
          · rintro ⟨pre, x', post, hsplit, hpre, hx'⟩
            cases pre with
            | nil =>
                cases hsplit
                rw [hx] at hx'
                exact Except.error.inj hx'
            | cons y pre =>
                cases hsplit
                obtain ⟨b, hb⟩ := hpre x List.mem_cons_self
                rw [hx] at hb
                cases hb
      | ok b =>
          have htail : (xs.mapM g >>= fun ys => pure (b :: ys)) = .error e ↔
              xs.mapM g = .error e := by
            cases xs.mapM g <;> simp [bind, Except.bind, pure, Except.pure]
          change (xs.mapM g >>= fun ys => pure (b :: ys)) = .error e ↔ _
          rw [htail, ih]
          constructor
          · rintro ⟨pre, x', post, rfl, hpre, hx'⟩
            refine ⟨x :: pre, x', post, rfl, fun y hy => ?_, hx'⟩
            rcases List.mem_cons.mp hy with rfl | hy
            · exact ⟨b, hx⟩
            · exact hpre y hy
          · rintro ⟨pre, x', post, hsplit, hpre, hx'⟩
            cases pre with
            | nil =>
                cases hsplit
                rw [hx] at hx'
                cases hx'
            | cons y pre =>
                cases hsplit
                exact ⟨pre, x', post, rfl, fun z hz => hpre z (List.mem_cons_of_mem _ hz), hx'⟩

end MapM

end Except

end Clob
