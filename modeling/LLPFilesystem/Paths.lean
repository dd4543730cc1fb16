import Mathlib.Data.List.Basic
import Mathlib.Control.Monad.Basic

/-!
# Resolving paths

A path is a list of bytes, cut into names at its slashes. It is resolved name by name
(`Paths.lead`), from the root if it starts with a slash and from the working directory
if not. Where a name leads from a location is a parameter, and so are dots and links:
`follow` may treat any name as it likes.

A path behind an absolute one and a slash is resolved where that one leads, whether it
starts with a slash or not (`Paths.resolve_join`). On its own it is resolved there only
if it does not (`Paths.resolve_relative`).
-/

namespace Paths

variable {ι : Type} {follow : ι → List UInt8 → Option ι} {root d e : ι} {p x : List UInt8}
  {l l' : List (List UInt8)}

/-- The names in a path. -/
def names (path : List UInt8) : List (List UInt8) := (path.splitOn 47).filter (· ≠ [])

/-- **Where some names lead**, from a location. -/
def lead (follow : ι → List UInt8 → Option ι) : ι → List (List UInt8) → Option ι
  | d, [] => some d
  | d, name :: l => (follow d name).bind fun e => lead follow e l

/-- **Where a path leads.** -/
def resolve (follow : ι → List UInt8 → Option ι) (root d : ι) (path : List UInt8) : Option ι :=
  if path = [] then none
  else lead follow (if path.head? = some 47 then root else d) (names path)

theorem names_join : names (p ++ 47 :: x) = names p ++ names x := by
  unfold names
  rw [List.splitOn_eq_splitOnP, List.splitOnP_append_cons p x (by decide), List.filter_append,
    ← List.splitOn_eq_splitOnP, ← List.splitOn_eq_splitOnP]

theorem lead_append :
    lead follow d (l ++ l') = (lead follow d l).bind fun e => lead follow e l' := by
  induction l generalizing d with
  | nil => rfl
  | cons name l ih =>
    show (follow d name).bind (fun e => lead follow e (l ++ l')) = _
    rw [lead, Option.bind_assoc]
    exact congrArg (Option.bind (follow d name)) (funext fun e => ih)

/-- **A path behind an absolute one** leads on from where that one leads. -/
theorem resolve_join (hp : p.head? = some 47) (h : lead follow root (names p) = some e) :
    resolve follow root d (p ++ 47 :: x) = lead follow e (names x) := by
  have hhead : (p ++ 47 :: x).head? = some 47 := by
    rw [List.head?_append, hp, Option.some_or]
  rw [resolve, if_neg (List.append_ne_nil_of_right_ne_nil _ (List.cons_ne_nil _ _)),
    if_pos hhead, names_join, lead_append, h, Option.bind_some]

theorem resolve_relative (hx : x ≠ []) (h : x.head? ≠ some 47) :
    resolve follow root d x = lead follow d (names x) := by
  rw [resolve, if_neg hx, if_neg h]

theorem resolve_absolute (h : x.head? = some 47) :
    resolve follow root d x = lead follow root (names x) := by
  have hx : x ≠ [] := by
    rintro rfl
    exact nomatch h
  rw [resolve, if_neg hx, if_pos h]

end Paths
