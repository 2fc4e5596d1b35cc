import Mathlib.Data.List.Basic
import Mathlib.Data.List.DropRight

/-!
# Splitting a sequence at separators

Three readers of one delimited text disagree about what a field is, and every disagreement
is a disagreement about one of the functions below:

* `readLines` is `getline`: the terminator stays with its line, and a text that ends in a
  terminator has no further line;
* `tokens` is the sequence of answers of `strtok_r`: runs of separators collapse, leading
  ones are skipped, an empty field does not exist;
* `cut` is `String.split(sep, limit)`: empty fields exist, and after `limit - 1` cuts the
  rest is one field, separators included.

All three are stated over an arbitrary alphabet with the separator as a predicate, and all
three are related to the core library's `List.splitOnP` where that is the better normal form.
The workhorse is `splitInduction`: a text either has no separator, or is a separator-free
prefix, a separator and a shorter text.
-/

namespace Text

variable {α : Type*} {p : α → Bool}

theorem head_of_dropWhile {q : α → Bool} {s rest : List α} {x : α}
    (h : s.dropWhile q = x :: rest) : q x = false := by
  have := List.head_dropWhile_not q (l := s) (by rw [h]; simp)
  simpa [h] using this

/-- A stretch of what is wanted, with something else or nothing behind it. -/
theorem span_stretch {q : α → Bool} {a r : List α} (ha : ∀ y ∈ a, q y = true)
    (hr : ∀ y ∈ r.head?, q y = false) :
    (a ++ r).takeWhile q = a ∧ (a ++ r).dropWhile q = r := by
  rw [List.takeWhile_append_of_pos ha, List.dropWhile_append_of_pos ha]
  cases r with
  | nil => exact ⟨List.append_nil a, rfl⟩
  | cons x rest =>
    have hx : ¬ q x = true := by simp [hr x rfl]
    rw [List.takeWhile_cons_of_neg hx, List.dropWhile_cons_of_neg hx, List.append_nil]
    exact ⟨rfl, rfl⟩

/-- A list at its last separator. -/
theorem exists_last {s : List α} (h : ∃ y ∈ s, p y = true) :
    ∃ a x b, s = a ++ x :: b ∧ p x = true ∧ ∀ y ∈ b, p y = false := by
  induction s with
  | nil =>
    obtain ⟨y, hy, -⟩ := h
    cases hy
  | cons c s ih =>
    by_cases hs : ∃ y ∈ s, p y = true
    · obtain ⟨a, x, b, rfl, hx, hb⟩ := ih hs
      exact ⟨c :: a, x, b, rfl, hx, hb⟩
    · have hfree : ∀ y ∈ s, p y = false := by
        intro y hy
        by_contra hp
        exact hs ⟨y, hy, by simpa using hp⟩
      obtain ⟨y, hy, hpy⟩ := h
      rcases List.mem_cons.mp hy with rfl | hy
      · exact ⟨[], y, s, rfl, hpy, hfree⟩
      · exact absurd ⟨y, hy, hpy⟩ hs

/-- **The induction rule for delimited text.** Separator-free text is the base case; the step
    peels the first field off together with the separator that ends it. -/
theorem splitInduction {motive : List α → Prop} (p : α → Bool)
    (last : ∀ l, (∀ x ∈ l, p x = false) → motive l)
    (step : ∀ a x rest, (∀ y ∈ a, p y = false) → p x = true → motive rest →
      motive (a ++ x :: rest)) : ∀ l, motive l := by
  intro l
  induction hn : l.length using Nat.strongRecOn generalizing l with
  | ind n ih =>
    cases hd : l.dropWhile (fun x => !p x) with
    | nil =>
      refine last l fun x hx => ?_
      simpa using List.dropWhile_eq_nil_iff.mp hd x hx
    | cons x rest =>
      have hx : p x = true := by simpa using head_of_dropWhile hd
      have hl : l.takeWhile (fun x => !p x) ++ x :: rest = l := by
        rw [← hd]
        exact List.takeWhile_append_dropWhile
      rw [← hl]
      refine step _ x rest (fun y hy => ?_) hx (ih rest.length ?_ rest rfl)
      · simpa using List.mem_takeWhile_imp hy
      · have := congrArg List.length hl
        simp only [List.length_append, List.length_cons] at this
        omega

/-! ## `getline` -/

/-- The lines of a text, each with the terminator that ends it; the last one may lack it. -/
def readLines (p : α → Bool) : List α → List (List α)
  | [] => []
  | a :: as =>
    if p a then [a] :: readLines p as
    else
      match readLines p as with
      | [] => [[a]]
      | l :: ls => (a :: l) :: ls

theorem readLines_append_cons {a : List α} {x : α} {rest : List α}
    (ha : ∀ y ∈ a, p y = false) (hx : p x = true) :
    readLines p (a ++ x :: rest) = (a ++ [x]) :: readLines p rest := by
  induction a with
  | nil => simp [readLines, hx]
  | cons b bs ih =>
    have hb : p b = false := ha b (by simp)
    simp [readLines, hb, ih fun y hy => ha y (by simp [hy])]

theorem readLines_of_free {a : List α} (ha : ∀ y ∈ a, p y = false) (hne : a ≠ []) :
    readLines p a = [a] := by
  induction a with
  | nil => exact absurd rfl hne
  | cons b bs ih =>
    have hb : p b = false := ha b (by simp)
    cases bs with
    | nil => simp [readLines, hb]
    | cons c cs =>
      have := ih (fun y hy => ha y (by simp [hy])) (by simp)
      simp only [readLines] at this ⊢
      simp [hb, this]

theorem mem_of_mem_splitOnP {s t : List α} (ht : t ∈ s.splitOnP p) : ∀ y ∈ t, y ∈ s := by
  induction s using splitInduction p with
  | last l hl =>
    rw [List.splitOnP_eq_singleton hl, List.mem_singleton] at ht
    exact fun y hy => ht ▸ hy
  | step a x rest ha hx ih =>
    rw [List.splitOnP_append_cons_of_forall_mem ha x hx, List.mem_cons] at ht
    intro y hy
    rcases ht with rfl | ht
    · simp [hy]
    · simp [ih ht y hy]

theorem not_sep_of_mem_splitOnP {s t : List α} (ht : t ∈ s.splitOnP p) :
    ∀ y ∈ t, p y = false := by
  induction s using splitInduction p with
  | last l hl =>
    rw [List.splitOnP_eq_singleton hl, List.mem_singleton] at ht
    exact ht ▸ hl
  | step a x rest ha hx ih =>
    rw [List.splitOnP_append_cons_of_forall_mem ha x hx, List.mem_cons] at ht
    rcases ht with rfl | ht
    · exact ha
    · exact ih ht

/-- Lines without separators, each ended by one, are the fields of the text they make. -/
theorem splitOnP_lines {x : α} (hx : p x = true) {ls : List (List α)}
    (h : ∀ l ∈ ls, ∀ y ∈ l, p y = false) :
    (ls.flatMap (fun l => l ++ [x])).splitOnP p = ls ++ [[]] := by
  induction ls with
  | nil => exact List.splitOnP_nil
  | cons l ls ih =>
    rw [List.flatMap_cons, List.append_assoc, List.singleton_append,
      List.splitOnP_append_cons_of_forall_mem (h l (by simp)) x hx,
      ih fun l hl => h l (List.mem_cons_of_mem _ hl), List.cons_append]

/-- A reader that ignores a line's terminator and finds nothing in an empty line reads the
    same from `getline`'s lines as from the fields between terminators. -/
theorem readLines_filterMap {β : Type*} {f : List α → Option β} (hnil : f [] = none)
    (hend : ∀ a x, p x = true → f (a ++ [x]) = f a) (l : List α) :
    (readLines p l).filterMap f = (l.splitOnP p).filterMap f := by
  induction l using splitInduction p with
  | last l hl =>
    rw [List.splitOnP_eq_singleton hl]
    by_cases hne : l = []
    · subst hne
      simp [readLines, hnil]
    · rw [readLines_of_free hl hne]
  | step a x rest ha hx ih =>
    rw [readLines_append_cons ha hx, List.splitOnP_append_cons_of_forall_mem ha x hx,
      List.filterMap_cons, List.filterMap_cons, hend a x hx, ih]

/-! ## `strtok_r` -/

/-- One `strtok_r` call: skip separators, answer the run up to the next one and where the
    next call resumes; `none` when only separators are left. -/
def strtokR (p : α → Bool) (s : List α) : Option (List α × List α) :=
  match s.dropWhile p with
  | [] => none
  | c :: cs =>
    some ((c :: cs).takeWhile (fun x => !p x), ((c :: cs).dropWhile (fun x => !p x)).drop 1)

/-- What repeated `strtok_r` calls answer: the non-empty fields, in order. -/
def tokens (p : α → Bool) (s : List α) : List (List α) :=
  (s.splitOnP p).filter (fun t => !t.isEmpty)

@[simp] theorem tokens_nil : tokens p ([] : List α) = [] := by
  simp [tokens]

theorem tokens_of_free {a : List α} (ha : ∀ y ∈ a, p y = false) (hne : a ≠ []) :
    tokens p a = [a] := by
  simp [tokens, List.splitOnP_eq_singleton ha, hne]

theorem tokens_append_cons {x : α} (hx : p x = true) (a rest : List α) :
    tokens p (a ++ x :: rest) = tokens p a ++ tokens p rest := by
  simp [tokens, List.splitOnP_append_cons a rest hx]

theorem tokens_cons_sep {x : α} (hx : p x = true) (rest : List α) :
    tokens p (x :: rest) = tokens p rest := by
  simpa using tokens_append_cons hx [] rest

theorem tokens_field_cons {a : List α} {x : α} (rest : List α)
    (ha : ∀ y ∈ a, p y = false) (hne : a ≠ []) (hx : p x = true) :
    tokens p (a ++ x :: rest) = a :: tokens p rest := by
  rw [tokens_append_cons hx, tokens_of_free ha hne, List.singleton_append]

/-- A field without separators that is not empty, and what follows it. -/
theorem tokens_stretch {a rest : List α} (ha : ∀ y ∈ a, p y = false) (hne : a ≠ [])
    (hrest : ∀ y ∈ rest.head?, p y = true) : tokens p (a ++ rest) = a :: tokens p rest := by
  cases rest with
  | nil => rw [List.append_nil, tokens_of_free ha hne, tokens_nil]
  | cons x rest => rw [tokens_field_cons rest ha hne (hrest x rfl), tokens_cons_sep (hrest x rfl)]

theorem tokens_dropWhile (s : List α) : tokens p (s.dropWhile p) = tokens p s := by
  induction s with
  | nil => rfl
  | cons a as ih =>
    by_cases ha : p a = true
    · rw [List.dropWhile_cons_of_pos ha, ih, tokens_cons_sep ha]
    · rw [List.dropWhile_cons_of_neg ha]

/-- `tokens` is what iterating `strtokR` yields. -/
theorem tokens_eq_strtokR (s : List α) :
    tokens p s = match strtokR p s with
      | none => []
      | some (t, rest) => t :: tokens p rest := by
  unfold strtokR
  rw [← tokens_dropWhile]
  cases hd : s.dropWhile p with
  | nil => simp
  | cons c cs =>
    have hc : p c = false := head_of_dropWhile hd
    have hfree : ∀ y ∈ (c :: cs).takeWhile (fun x => !p x), p y = false := fun y hy => by
      simpa using List.mem_takeWhile_imp hy
    have hne : (c :: cs).takeWhile (fun x => !p x) ≠ [] := by simp [hc]
    have happ : (c :: cs).takeWhile (fun x => !p x) ++ (c :: cs).dropWhile (fun x => !p x)
        = c :: cs := List.takeWhile_append_dropWhile
    show tokens p (c :: cs) = (c :: cs).takeWhile (fun x => !p x)
      :: tokens p (((c :: cs).dropWhile (fun x => !p x)).drop 1)
    cases hr : (c :: cs).dropWhile (fun x => !p x) with
    | nil =>
      rw [hr, List.append_nil] at happ
      rw [happ] at hfree hne ⊢
      simpa using tokens_of_free hfree hne
    | cons x rest =>
      have hx : p x = true := by simpa using head_of_dropWhile hr
      rw [hr] at happ
      conv_lhs => rw [← happ]
      exact tokens_field_cons rest hfree hne hx

theorem not_sep_of_mem_tokens {s t : List α} (ht : t ∈ tokens p s) :
    t ≠ [] ∧ ∀ y ∈ t, p y = false := by
  obtain ⟨hmem, hne⟩ := List.mem_filter.mp ht
  exact ⟨by simpa using hne, not_sep_of_mem_splitOnP hmem⟩

theorem mem_of_mem_tokens {s t : List α} (ht : t ∈ tokens p s) : ∀ y ∈ t, y ∈ s :=
  mem_of_mem_splitOnP (List.mem_filter.mp ht).1

/-- What is no separator is in some field. -/
theorem exists_token_of_mem {s : List α} {x : α} (hmem : x ∈ s) (hx : p x = false) :
    ∃ t ∈ tokens p s, x ∈ t := by
  induction s using splitInduction p with
  | last l hl => exact ⟨l, by rw [tokens_of_free hl (List.ne_nil_of_mem hmem)]; simp, hmem⟩
  | step a y rest ha hy ih =>
    rw [tokens_append_cons hy]
    rcases List.mem_append.mp hmem with hmem | hmem
    · exact ⟨a, by rw [tokens_of_free ha (List.ne_nil_of_mem hmem)]; simp, hmem⟩
    · rcases List.mem_cons.mp hmem with rfl | hmem
      · rw [hx] at hy
        cases hy
      · obtain ⟨t, ht, hxt⟩ := ih hmem
        exact ⟨t, List.mem_append_right _ ht, hxt⟩

theorem length_le_of_mem_splitOnP {s t : List α} (ht : t ∈ s.splitOnP p) : t.length ≤ s.length := by
  induction s using splitInduction p with
  | last l hl =>
    rw [List.splitOnP_eq_singleton hl, List.mem_singleton] at ht
    rw [ht]
  | step a x rest ha hx ih =>
    rw [List.splitOnP_append_cons_of_forall_mem ha x hx, List.mem_cons] at ht
    rw [List.length_append, List.length_cons]
    rcases ht with rfl | ht
    · omega
    · have := ih ht
      omega

/-- Two fields need a separator between them. -/
theorem length_of_two_tokens {s t u : List α} {more : List (List α)}
    (h : tokens p s = t :: u :: more) : 3 ≤ s.length := by
  have hfields : ∀ v ∈ tokens p s, 1 ≤ v.length := fun v hv =>
    List.length_pos_of_ne_nil (not_sep_of_mem_tokens hv).1
  induction s using splitInduction p with
  | last l hl =>
    by_cases hnil : l = []
    · rw [hnil, tokens_nil] at h
      cases h
    · rw [tokens_of_free hl hnil] at h
      cases h
  | step a x rest ha hx ih =>
    rw [tokens_append_cons hx] at h hfields
    rw [List.length_append, List.length_cons]
    by_cases hnil : a = []
    · rw [hnil, tokens_nil, List.nil_append] at h hfields
      have := ih h hfields
      omega
    · rw [tokens_of_free ha hnil, List.singleton_append] at h
      obtain ⟨-, hrest⟩ := List.cons.inj h
      have hu : u ∈ tokens p rest := by
        rw [hrest]
        exact List.mem_cons_self
      have hurest := length_le_of_mem_splitOnP (List.mem_filter.mp hu).1
      have hupos := hfields u (List.mem_append_right _ hu)
      have hapos := List.length_pos_of_ne_nil hnil
      omega

/-! ## `split(sep, limit)` -/

/-- `split` with at most `n` cuts: the fields before the first `n` separators, then whatever
    is left as one field. -/
def cut (p : α → Bool) : Nat → List α → List (List α)
  | 0, s => [s]
  | n + 1, s =>
    match s.dropWhile (fun x => !p x) with
    | [] => [s]
    | _ :: rest => s.takeWhile (fun x => !p x) :: cut p n rest

theorem cut_of_free {a : List α} (ha : ∀ y ∈ a, p y = false) (n : Nat) : cut p n a = [a] := by
  cases n with
  | zero => rfl
  | succ n =>
    have : a.dropWhile (fun x => !p x) = [] :=
      List.dropWhile_eq_nil_iff.mpr fun y hy => by simp [ha y hy]
    simp [cut, this]

theorem cut_field_cons {a : List α} {x : α} (rest : List α) (ha : ∀ y ∈ a, p y = false)
    (hx : p x = true) (n : Nat) : cut p (n + 1) (a ++ x :: rest) = a :: cut p n rest := by
  have ht : (a ++ x :: rest).takeWhile (fun y => !p y) = a := by
    rw [List.takeWhile_append_of_pos fun y hy => by simp [ha y hy]]
    simp [hx]
  have hd : (a ++ x :: rest).dropWhile (fun y => !p y) = x :: rest := by
    rw [List.dropWhile_append_of_pos fun y hy => by simp [ha y hy]]
    simp [hx]
  simp [cut, ht, hd]

/-- Every text is its own `cut` in one of three ways when two cuts are allowed; the reader
    of a three-field line sees exactly these shapes. -/
theorem cut_two_cases (p : α → Bool) (s : List α) :
    ((∀ y ∈ s, p y = false) ∧ cut p 2 s = [s]) ∨
    (∃ a x b, s = a ++ x :: b ∧ p x = true ∧ (∀ y ∈ a, p y = false) ∧
      (∀ y ∈ b, p y = false) ∧ cut p 2 s = [a, b]) ∨
    (∃ a x b y c, s = a ++ x :: (b ++ y :: c) ∧ p x = true ∧ p y = true ∧
      (∀ z ∈ a, p z = false) ∧ (∀ z ∈ b, p z = false) ∧ cut p 2 s = [a, b, c]) := by
  -- Two uses of the rule, one per cut; the inner induction hypotheses are not needed.
  induction s using splitInduction p with
  | last l hl => exact Or.inl ⟨hl, cut_of_free hl 2⟩
  | step a x rest ha hx _ =>
    refine Or.inr ?_
    rw [cut_field_cons rest ha hx 1]
    induction rest using splitInduction p with
    | last l hl => exact Or.inl ⟨a, x, l, rfl, hx, ha, hl, by rw [cut_of_free hl 1]⟩
    | step b y c hb hy _ =>
      exact Or.inr ⟨a, x, b, y, c, rfl, hx, hy, ha, hb, by rw [cut_field_cons c hb hy 0, cut]⟩

/-! ## Lookups -/

/-- The first value under a key, among what the members of a list stand for. -/
theorem find?_filterMap_eq_some {β γ : Type*} [DecidableEq β] {f : α → Option (β × γ)}
    {l : List α} {b : β} {c : γ} :
    ((l.filterMap f).find? (fun x => x.1 = b)).map Prod.snd = some c ↔
      ∃ before a after, l = before ++ a :: after ∧ f a = some (b, c) ∧
        ∀ x ∈ before, ∀ c', f x ≠ some (b, c') := by
  rw [List.find?_filterMap, Option.map_eq_some_iff]
  constructor
  · rintro ⟨⟨b', c'⟩, hbind, rfl⟩
    obtain ⟨a, hfind, ha⟩ := Option.bind_eq_some_iff.mp hbind
    obtain ⟨hkey, before, after, hsplit, hbefore⟩ := List.find?_eq_some_iff_append.mp hfind
    have hb : b' = b := by simpa [ha] using hkey
    subst hb
    refine ⟨before, a, after, hsplit, ha, fun x hx c'' hc => ?_⟩
    have hno := hbefore x hx
    simp [hc] at hno
  · rintro ⟨before, a, after, hsplit, ha, hbefore⟩
    refine ⟨(b, c), Option.bind_eq_some_iff.mpr ⟨a, ?_, ha⟩, rfl⟩
    refine List.find?_eq_some_iff_append.mpr ⟨by simp [ha], before, after, hsplit, ?_⟩
    intro x hx
    cases hf : f x with
    | none => rfl
    | some y =>
      obtain ⟨b', c'⟩ := y
      have hb : b' ≠ b := fun hq => hbefore x hx c' (hq ▸ hf)
      simp [hb]

end Text
