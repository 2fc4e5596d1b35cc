import Mathlib.Data.List.Lex
import Mathlib.Data.List.Perm.Basic
import Mathlib.Order.Lattice

/-!
# Sorting by a key, stably

What a sort by a key promises when it is stable: the entries are the same ones, their keys go
up, and the entries with one key are in the order in which they were. The three together say
what the sorted list is, so a program that relies on a stable sort can be read with any of them
in its place; `List.mergeSort` is the one used here.
-/

namespace StableSort

variable {α κ : Type*} [LinearOrder κ] {key : α → κ}

/-- The comparison a sort by a key makes. -/
def keyLe (key : α → κ) (a b : α) : Bool := decide (key a ≤ key b)

/-- `sorted` is `l`, sorted by the key and with equal keys in their old order. -/
structure SortedBy (key : α → κ) (l sorted : List α) : Prop where
  perm : sorted.Perm l
  ordered : sorted.Pairwise (fun a b => key a ≤ key b)
  stable : ∀ k, sorted.filter (fun a => key a = k) = l.filter (fun a => key a = k)

theorem keyLe_trans (a b c : α) (hab : keyLe key a b = true) (hbc : keyLe key b c = true) :
    keyLe key a c = true := by
  simp only [keyLe, decide_eq_true_eq] at *
  exact le_trans hab hbc

theorem keyLe_total (a b : α) : (keyLe key a b || keyLe key b a) = true := by
  simp only [keyLe, Bool.or_eq_true, decide_eq_true_eq]
  exact le_total (key a) (key b)

theorem SortedBy.mergeSort (key : α → κ) (l : List α) :
    SortedBy key l (l.mergeSort (keyLe key)) where
  perm := List.mergeSort_perm l (keyLe key)
  ordered := by
    have h : (l.mergeSort (keyLe key)).Pairwise fun a b => keyLe key a b = true :=
      List.pairwise_mergeSort keyLe_trans keyLe_total l
    exact h.imp fun hab => of_decide_eq_true hab
  stable := by
    -- the entries with one key are in order already, so the sort keeps them as they are
    intro k
    have hordered : (l.filter fun a => key a = k).Pairwise fun a b => keyLe key a b = true := by
      refine List.pairwise_of_forall_mem_list ?_
      intro a ha b hb
      have hka := (List.mem_filter.mp ha).2
      have hkb := (List.mem_filter.mp hb).2
      simp only [decide_eq_true_eq] at hka hkb
      simp [keyLe, hka, hkb]
    have hsub := (List.sublist_mergeSort keyLe_trans keyLe_total hordered
      List.filter_sublist).filter (fun a => decide (key a = k))
    rw [List.filter_filter] at hsub
    simp only [Bool.and_self] at hsub
    have hlen := ((List.mergeSort_perm l (keyLe key)).filter fun a => decide (key a = k)).length_eq
    exact (hsub.eq_of_length hlen.symm).symm

end StableSort
