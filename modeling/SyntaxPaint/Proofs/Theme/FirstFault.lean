import Mathlib.Data.List.Forall2
/-!
# First faults

Where pieces are checked one after the other, the first piece with a fault decides what is reported.
A list of readings succeeds when all of them do and fails as the first that fails.
-/
namespace SyntaxPaint

variable {α β γ ε : Type} {fault : α → ε → Prop} {as bs : List α} {a : α} {e : ε}

/-- The first of some pieces that has a fault has this one. -/
def FirstFault (fault : α → ε → Prop) (pieces : List α) (e : ε) : Prop :=
  ∃ front piece later, pieces = front ++ piece :: later ∧
    (∀ a ∈ front, ∀ e, ¬ fault a e) ∧ fault piece e

@[simp] theorem not_firstFault_nil : ¬ FirstFault fault [] e := by
  rintro ⟨front, piece, later, h, -⟩
  simp at h

theorem firstFault_cons_iff :
    FirstFault fault (a :: as) e ↔ fault a e ∨ (∀ e, ¬ fault a e) ∧ FirstFault fault as e := by
  constructor
  · rintro ⟨_ | ⟨b, front⟩, piece, later, h, sound, found⟩
    · obtain ⟨rfl, -⟩ := List.cons.inj h
      exact .inl found
    · obtain ⟨rfl, rfl⟩ := List.cons.inj h
      obtain ⟨hb, hfront⟩ := List.forall_mem_cons.mp sound
      exact .inr ⟨hb, front, piece, later, rfl, hfront, found⟩
  · rintro (found | ⟨ha, front, piece, later, rfl, sound, found⟩)
    · exact ⟨[], a, as, rfl, by simp, found⟩
    · exact ⟨a :: front, piece, later, rfl, List.forall_mem_cons.mpr ⟨ha, sound⟩, found⟩

theorem firstFault_append_iff : FirstFault fault (as ++ bs) e ↔
    FirstFault fault as e ∨ (∀ a ∈ as, ∀ e, ¬ fault a e) ∧ FirstFault fault bs e := by
  induction as with
  | nil => simp
  | cons a as ih =>
    rw [List.cons_append, firstFault_cons_iff, firstFault_cons_iff, ih, List.forall_mem_cons]
    tauto

theorem exists_firstFault_iff : (∃ e, FirstFault fault as e) ↔ ∃ a ∈ as, ∃ e, fault a e := by
  induction as with
  | nil => simp
  | cons a as ih =>
    simp only [firstFault_cons_iff, exists_or, exists_and_left, ih, List.exists_mem_cons_iff]
    by_cases ha : ∃ e, fault a e
    · simp [ha]
    · simp [not_exists.mp ha]

theorem firstFault_flatMap_iff {gs : List γ} {f : γ → List α} :
    FirstFault fault (gs.flatMap f) e ↔ FirstFault (fun g => FirstFault fault (f g)) gs e := by
  induction gs with
  | nil => simp
  | cons g gs ih =>
    have hsound : (∀ a ∈ f g, ∀ e, ¬ fault a e) ↔ ∀ e, ¬ FirstFault fault (f g) e := by
      rw [← not_exists, exists_firstFault_iff]
      simp
    rw [List.flatMap_cons, firstFault_append_iff, firstFault_cons_iff, ih, hsound]

section Readings

variable {δ : Type} {x : Except ε β} {f : β → Except ε γ} {c : γ}

theorem bind_eq_ok_iff : (x >>= f) = .ok c ↔ ∃ b, x = .ok b ∧ f b = .ok c := by
  cases x <;> simp [bind, Except.bind]

theorem exists_eq_ok_iff : (∃ b, x = .ok b) ↔ ∀ e, x ≠ .error e := by
  cases x <;> simp

theorem map_eq_ok_iff {g : β → γ} : x.map g = .ok c ↔ ∃ b, x = .ok b ∧ g b = c := by
  cases x <;> simp [Except.map]

theorem mapError_eq_ok_iff {g : ε → δ} {b : β} : x.mapError g = .ok b ↔ x = .ok b := by
  cases x <;> simp [Except.mapError]

theorem mapError_eq_error_iff {g : ε → δ} {d : δ} :
    x.mapError g = .error d ↔ ∃ e, x = .error e ∧ g e = d := by
  cases x <;> simp [Except.mapError]

/-- A reading that goes on with others reports its own fault before theirs. -/
theorem bind_eq_error_iff_firstFault (here : ∀ e, x = .error e ↔ fault a e)
    (behind : ∀ b, x = .ok b → (f b = .error e ↔ FirstFault fault as e)) :
    (x >>= f) = .error e ↔ FirstFault fault (a :: as) e := by
  simp only [firstFault_cons_iff, ← here]
  cases x with
  | error e' => simp [bind, Except.bind]
  | ok b =>
    rw [← behind b rfl]
    simp [bind, Except.bind]

theorem mapM_eq_error_iff {read : α → Except ε β} :
    as.mapM read = .error e ↔ FirstFault (fun a e => read a = .error e) as e := by
  induction as with
  | nil => simp [pure, Except.pure]
  | cons a as ih =>
    rw [List.mapM_cons]
    refine bind_eq_error_iff_firstFault (fun _ => Iff.rfl) fun b _ => ?_
    rw [← ih]
    cases as.mapM read <;> simp [bind, Except.bind, pure, Except.pure]

theorem exists_mapM_eq_ok_iff {read : α → Except ε β} :
    (∃ bs, as.mapM read = .ok bs) ↔ ∀ a ∈ as, ∃ b, read a = .ok b := by
  simp only [exists_eq_ok_iff, ne_eq, mapM_eq_error_iff, ← not_exists, exists_firstFault_iff]
  simp

theorem mapM_eq_ok_iff {read : α → Except ε β} {bs : List β} :
    as.mapM read = .ok bs ↔ List.Forall₂ (fun a b => read a = .ok b) as bs := by
  induction as generalizing bs with
  | nil => simp [pure, Except.pure, eq_comm]
  | cons a as ih =>
    rw [List.mapM_cons, List.forall₂_cons_left_iff]
    simp only [bind_eq_ok_iff, ih, pure, Except.pure, Except.ok.injEq, ← exists_and_left,
      eq_comm (a := bs)]

end Readings
end SyntaxPaint
