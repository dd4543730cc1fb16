import Mathlib.Data.List.Basic

/-!
# Offering a list page by page

A producer offers the elements of a list one after the other to a consumer that
may stop at any of them, judging from what it has taken before. What has been
taken is always a prefix of the list, all of it unless the consumer refused
(`exists_taken`), and offering two lists in turn is offering one after the other
(`offer_append`).
-/

namespace Paging

variable {α : Type*} {accept : List α → α → Bool} {x : α} {xs ys taken : List α}

/-- **Offer a list** to a consumer that has taken `taken` so far: whether it took
everything, and what it has taken in the end. -/
def offer (accept : List α → α → Bool) : List α → List α → Bool × List α
  | [], taken => (true, taken)
  | x :: xs, taken =>
    if accept taken x then offer accept xs (taken ++ [x]) else (false, taken)

theorem offer_cons_accept (h : accept taken x = true) :
    offer accept (x :: xs) taken = offer accept xs (taken ++ [x]) := if_pos h

theorem offer_cons_refuse (h : ¬ accept taken x = true) :
    offer accept (x :: xs) taken = (false, taken) := if_neg h

/-- **Offering one list after the other**: the second one is only offered if the
first one was taken. -/
theorem offer_append :
    offer accept (xs ++ ys) taken
      = if (offer accept xs taken).1 then offer accept ys (offer accept xs taken).2
        else (false, (offer accept xs taken).2) := by
  induction xs generalizing taken with
  | nil => rfl
  | cons x xs ih =>
    by_cases hx : accept taken x = true
    · rw [List.cons_append, offer_cons_accept hx, offer_cons_accept hx]
      exact ih
    · rw [List.cons_append, offer_cons_refuse hx, offer_cons_refuse hx]
      rfl

/-- **What has been taken is a prefix**, and all there is if nothing was
refused. -/
theorem exists_taken (accept : List α → α → Bool) (xs taken : List α) :
    ∃ ys zs, xs = ys ++ zs ∧ (offer accept xs taken).2 = taken ++ ys
      ∧ ((offer accept xs taken).1 = true → zs = []) := by
  induction xs generalizing taken with
  | nil => exact ⟨[], [], rfl, (List.append_nil taken).symm, fun _ => rfl⟩
  | cons x xs ih =>
    by_cases hx : accept taken x = true
    · obtain ⟨ys, zs, hxs, htaken, hall⟩ := ih (taken ++ [x])
      refine ⟨x :: ys, zs, congrArg (x :: ·) hxs, ?_, ?_⟩
      · rw [offer_cons_accept hx, htaken, List.append_assoc]
        rfl
      · rw [offer_cons_accept hx]
        exact hall
    · refine ⟨[], x :: xs, rfl, ?_, ?_⟩
      · rw [offer_cons_refuse hx, List.append_nil]
      · rw [offer_cons_refuse hx]
        exact fun h => absurd h Bool.false_ne_true

/-- A consumer that takes everything. -/
theorem offer_all : offer (fun _ _ => true) xs taken = (true, taken ++ xs) := by
  induction xs generalizing taken with
  | nil => exact congrArg (Prod.mk true) (List.append_nil taken).symm
  | cons x xs ih =>
    rw [offer_cons_accept rfl, ih, List.append_assoc]
    rfl

/-- A consumer that takes the first element it is offered takes something, if
there is something. -/
theorem offer_ne_nil (hfirst : ∀ x, accept [] x = true) (hxs : xs ≠ []) :
    (offer accept xs []).2 ≠ [] := by
  obtain ⟨x, xs, rfl⟩ := List.exists_cons_of_ne_nil hxs
  obtain ⟨ys, zs, -, htaken, -⟩ := exists_taken accept xs ([] ++ [x])
  rw [offer_cons_accept (hfirst x), htaken]
  exact List.append_ne_nil_of_left_ne_nil (by simp) _

end Paging
