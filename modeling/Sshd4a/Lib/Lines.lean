import Sshd4a.Lib.Split

/-!
# Texts that are lists of lines

A line-oriented tool reads a text as a list of lines and writes a list of lines by ending each of
them. The two are inverse only on texts whose last line is ended: `textLines` takes a last line
that is not for a line, and `unlines` ends it.

The difference shows when something is appended. Behind a text that is `Terminated`, what is
appended makes lines of its own (`textLines_append`); behind any other, it goes on with the last
line, and there are no more lines than before (`length_textLines_append`).
-/

namespace Text

variable {α : Type*} {x : α}

/-- The text of a list of lines. -/
def unlines (x : α) (ls : List (List α)) : List α := ls.flatMap fun l => l ++ [x]

/-- Nothing stands behind the last `x`. -/
def Terminated (x : α) (s : List α) : Prop := ∀ y ∈ s.getLast?, y = x

@[simp] theorem unlines_nil : unlines x [] = [] := rfl

@[simp] theorem unlines_cons (l : List α) (ls : List (List α)) :
    unlines x (l :: ls) = l ++ x :: unlines x ls := by
  rw [unlines, List.flatMap_cons, List.append_assoc, List.singleton_append]
  rfl

theorem terminated_unlines (ls : List (List α)) : Terminated x (unlines x ls) := by
  induction ls using List.reverseRecOn with
  | nil =>
    intro y hy
    cases hy
  | append_singleton ls l _ =>
    intro y hy
    rw [unlines, List.flatMap_append, List.flatMap_singleton, ← List.append_assoc,
      List.getLast?_concat, Option.mem_some_iff] at hy
    exact hy.symm

theorem terminated_unlines_append {ls : List (List α)} {a : List α} (ha : x ∉ a) :
    Terminated x (unlines x ls ++ a) ↔ a = [] := by
  constructor
  · intro h
    induction a using List.reverseRecOn with
    | nil => rfl
    | append_singleton as b _ =>
      have hb : b = x := h b (by rw [← List.append_assoc, List.getLast?_concat]; rfl)
      exact absurd (List.mem_append_right as (List.mem_singleton.mpr hb.symm)) ha
  · rintro rfl
    rw [List.append_nil]
    exact terminated_unlines ls

variable [DecidableEq α]

instance (s : List α) : Decidable (Terminated x s) :=
  inferInstanceAs (Decidable (∀ y ∈ s.getLast?, y = x))

/-- The lines of a text that `x` ends; the last one may lack it. -/
def textLines (x : α) : List α → List (List α)
  | [] => []
  | a :: as =>
    if a = x then [] :: textLines x as
    else
      match textLines x as with
      | [] => [[a]]
      | l :: ls => (a :: l) :: ls

@[simp] theorem textLines_nil : textLines x [] = [] := rfl

theorem textLines_append_cons {a : List α} (ha : x ∉ a) (rest : List α) :
    textLines x (a ++ x :: rest) = a :: textLines x rest := by
  induction a with
  | nil => simp [textLines]
  | cons b bs ih =>
    rw [List.mem_cons, not_or] at ha
    obtain ⟨hb, hbs⟩ := ha
    rw [List.cons_append, textLines, if_neg (Ne.symm hb), ih hbs]

theorem textLines_of_notMem {a : List α} (ha : x ∉ a) (hne : a ≠ []) : textLines x a = [a] := by
  induction a with
  | nil => exact absurd rfl hne
  | cons b bs ih =>
    rw [List.mem_cons, not_or] at ha
    obtain ⟨hb, hbs⟩ := ha
    rw [textLines, if_neg (Ne.symm hb)]
    by_cases hnil : bs = []
    · rw [hnil]
      rfl
    · rw [ih hbs hnil]

/-- **Every text is lines, and something that is no line yet.** -/
theorem exists_unlines_append (x : α) (s : List α) :
    ∃ ls a, s = unlines x ls ++ a ∧ (∀ l ∈ ls, x ∉ l) ∧ x ∉ a := by
  induction s using splitInduction (fun y => decide (y = x)) with
  | last l hl =>
    refine ⟨[], l, rfl, ?_, ?_⟩
    · intro l hl
      cases hl
    · intro hx
      have := hl x hx
      simp at this
  | step a y rest ha hy ih =>
    obtain ⟨ls, b, hrest, hls, hb⟩ := ih
    obtain rfl : y = x := by simpa using hy
    refine ⟨a :: ls, b, ?_, ?_, hb⟩
    · rw [unlines_cons, hrest, List.append_assoc, List.cons_append]
    · intro l hl
      rcases List.mem_cons.mp hl with rfl | hl
      · intro hx
        have := ha y hx
        simp at this
      · exact hls l hl

theorem textLines_unlines_append {ls : List (List α)} (h : ∀ l ∈ ls, x ∉ l) (s : List α) :
    textLines x (unlines x ls ++ s) = ls ++ textLines x s := by
  induction ls with
  | nil => rfl
  | cons l ls ih =>
    rw [unlines_cons, List.append_assoc, List.cons_append,
      textLines_append_cons (h l List.mem_cons_self), List.cons_append,
      ih fun l hl => h l (List.mem_cons_of_mem _ hl)]

theorem textLines_unlines {ls : List (List α)} (h : ∀ l ∈ ls, x ∉ l) :
    textLines x (unlines x ls) = ls := by
  simpa using textLines_unlines_append h []

theorem notMem_of_mem_textLines {s l : List α} (h : l ∈ textLines x s) : x ∉ l := by
  obtain ⟨ls, a, rfl, hls, ha⟩ := exists_unlines_append x s
  rw [textLines_unlines_append hls, List.mem_append] at h
  rcases h with h | h
  · exact hls l h
  · by_cases hnil : a = []
    · rw [hnil] at h
      cases h
    · rw [textLines_of_notMem ha hnil, List.mem_singleton] at h
      rw [h]
      exact ha

/-- A text that is ended is its lines, ended. -/
theorem unlines_textLines {s : List α} (h : Terminated x s) : unlines x (textLines x s) = s := by
  obtain ⟨ls, a, rfl, hls, ha⟩ := exists_unlines_append x s
  rw [terminated_unlines_append ha] at h
  rw [h, List.append_nil, textLines_unlines hls]

/-- Behind a text that is ended, new text makes lines of its own. -/
theorem textLines_append {s : List α} (h : Terminated x s) (t : List α) :
    textLines x (s ++ t) = textLines x s ++ textLines x t := by
  conv_lhs => rw [← unlines_textLines h]
  exact textLines_unlines_append (fun l hl => notMem_of_mem_textLines hl) t

/-- Behind any other, a line goes on with the last one. -/
theorem length_textLines_append {s u : List α} (h : ¬ Terminated x s) (hu : x ∉ u) :
    (textLines x (s ++ (u ++ [x]))).length = (textLines x s).length := by
  obtain ⟨ls, a, rfl, hls, ha⟩ := exists_unlines_append x s
  rw [terminated_unlines_append ha] at h
  have hau : x ∉ a ++ u := by
    rw [List.mem_append, not_or]
    exact ⟨ha, hu⟩
  rw [List.append_assoc, textLines_unlines_append hls, textLines_unlines_append hls,
    textLines_of_notMem ha h, ← List.append_assoc, textLines_append_cons hau, textLines_nil,
    List.length_append, List.length_append]
  rfl

end Text
