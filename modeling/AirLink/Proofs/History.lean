/-
  Looking back on a history.

  `EverSince P Q l`: some entry of `l` was as `P` says, given what came before it,
  and everything after it is as `Q` says.  Entries are added at the end, so all
  that is known of it follows from what one more entry does (`everSince_concat`).
-/
namespace AirLink

variable {α : Type} {P : List α → α → Prop} {Q : α → Prop} {l r : List α} {x : α}

/-- There is an entry with `P`, and only entries with `Q` after it. -/
def EverSince (P : List α → α → Prop) (Q : α → Prop) (l : List α) : Prop :=
  ∃ before x later, l = before ++ x :: later ∧ P before x ∧ ∀ y ∈ later, Q y

@[simp] theorem not_everSince_nil : ¬EverSince P Q [] := by
  rintro ⟨before, x, later, hl, -⟩
  exact List.append_ne_nil_of_right_ne_nil before (List.cons_ne_nil x later) hl.symm

@[simp] theorem everSince_concat : EverSince P Q (l ++ [x]) ↔ P l x ∨ EverSince P Q l ∧ Q x := by
  constructor
  · rintro ⟨before, y, later, hl, hp, hq⟩
    rcases List.eq_nil_or_concat later with rfl | ⟨later, z, rfl⟩
    · obtain ⟨rfl, hxy⟩ := List.append_inj' hl rfl
      cases hxy
      exact .inl hp
    · rw [List.concat_eq_append] at hl hq
      rw [← List.cons_append, ← List.append_assoc] at hl
      obtain ⟨rfl, hxz⟩ := List.append_inj' hl rfl
      cases hxz
      exact .inr ⟨⟨before, y, later, rfl, hp, fun w hw => hq w (by simp [hw])⟩, hq x (by simp)⟩
  · rintro (hp | ⟨⟨before, y, later, rfl, hp, hq⟩, hx⟩)
    · exact ⟨l, x, [], rfl, hp, nofun⟩
    · refine ⟨before, y, later ++ [x], by simp, hp, fun z hz => ?_⟩
      rcases List.mem_append.1 hz with hz | hz
      · exact hq z hz
      · rw [List.mem_singleton.1 hz]
        exact hx

theorem EverSince.append (h : EverSince P Q l) (hr : ∀ y ∈ r, Q y) : EverSince P Q (l ++ r) := by
  obtain ⟨before, x, later, rfl, hp, hq⟩ := h
  refine ⟨before, x, later ++ r, by simp, hp, fun y hy => ?_⟩
  exact (List.mem_append.1 hy).elim (hq y) (hr y)

end AirLink
