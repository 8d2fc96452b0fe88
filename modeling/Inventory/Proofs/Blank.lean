import Inventory.Text.Blank
import Mathlib.Data.List.DropRight

/-!
# Trimmed texts

What trimming takes away from the ends of a text, and what it leaves.
-/

namespace Inventory.Text

variable {p : Char → Bool} {cs : List Char}

theorem trimBy_of_none (h : ∀ c ∈ cs, p c = false) :
    trimBy p cs = cs := by
  have hdrop {ds : List Char} (hds : ∀ c ∈ ds, p c = false) : ds.dropWhile p = ds := by
    cases ds with
    | nil => rfl
    | cons d rest => exact List.dropWhile_cons_of_neg (by simp [hds d (List.mem_cons_self ..)])
  rw [trimBy, hdrop h, hdrop fun c hc => h c (List.mem_reverse.1 hc), List.reverse_reverse]

/-- What is trimmed goes on from the first character that is kept. -/
theorem trimBy_front (p : Char → Bool) (cs : List Char) : trimBy p cs <+: cs.dropWhile p :=
  List.rdropWhile_prefix p _

theorem trimBy_sublist (p : Char → Bool) (cs : List Char) : (trimBy p cs).Sublist cs :=
  (trimBy_front p cs).sublist.trans (List.dropWhile_sublist p)

theorem trimBy_trimBy (p : Char → Bool) (cs : List Char) : trimBy p (trimBy p cs) = trimBy p cs := by
  have htrim (ds : List Char) : trimBy p ds = (ds.dropWhile p).rdropWhile p := rfl
  -- what is dropped at the end uncovers nothing in front
  have hfront : (trimBy p cs).dropWhile p = trimBy p cs := by
    obtain ⟨rest, hrest⟩ := trimBy_front p cs
    cases htrimmed : trimBy p cs with
    | nil => rfl
    | cons c tail =>
        rw [htrimmed, List.cons_append] at hrest
        have hc := List.head_dropWhile_not p (hrest ▸ List.cons_ne_nil c _)
        simp only [← hrest, List.head_cons] at hc
        exact List.dropWhile_cons_of_neg (Bool.eq_false_iff.1 hc)
  rw [htrim (trimBy p cs), hfront, htrim, List.rdropWhile_idempotent]

theorem trim_trim (s : String) : trim (trim s) = trim s := by
  rw [trim, trim, String.toList_ofList, trimBy_trimBy]

end Inventory.Text
