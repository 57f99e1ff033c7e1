/-!
# Last in, first out

What is kept last in, first out stands in the order in which it came in, the latest
first.  The list of all that ever came in has the same order: what was given away since
is passed over, and so is what came in and was not kept.
-/

namespace Coop

/-- The kept elements are in the order in which they came in last, the latest one first. -/
inductive LatestFirst {α : Type} : List α → List α → Prop where
  | nil {past : List α} : LatestFirst [] past
  | came {a : α} {kept past : List α} : a ∉ kept → LatestFirst kept past →
      LatestFirst (a :: kept) (a :: past)
  | passed {a : α} {kept past : List α} : a ∉ kept → LatestFirst kept past →
      LatestFirst kept (a :: past)

namespace LatestFirst

variable {α : Type} {a : α} {kept past : List α}

theorem tail (h : LatestFirst (a :: kept) past) : LatestFirst kept past := by
  generalize hall : a :: kept = all at h
  induction h with
  | nil => cases hall
  | came hnew hkept _ =>
      cases hall
      exact .passed hnew hkept
  | passed hgone _ ih =>
      cases hall
      exact .passed (fun hmem => hgone (List.mem_cons_of_mem a hmem)) (ih rfl)

theorem of_suffix {kept' : List α} (h : LatestFirst kept past) (hsuffix : kept' <:+ kept) :
    LatestFirst kept' past := by
  rcases hsuffix with ⟨given, rfl⟩
  induction given with
  | nil => exact h
  | cons a given ih => exact ih h.tail

theorem find?_eq_head? (h : LatestFirst kept past) {p : α → Bool}
    (hp : ∀ b, p b = true ↔ b ∈ kept) : past.find? p = kept.head? := by
  induction h with
  | nil => exact List.find?_eq_none.mpr fun b _ hb => List.not_mem_nil ((hp b).mp hb)
  | came _ _ _ => exact List.find?_cons_of_pos ((hp _).mpr List.mem_cons_self)
  | passed hgone _ ih =>
      rw [List.find?_cons_of_neg fun hb => hgone ((hp _).mp hb)]
      exact ih hp

end LatestFirst

end Coop
