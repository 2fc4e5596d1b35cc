import Mathlib.Data.List.Basic

/-!
# Backtracking regular expressions

A matcher that backtracks tries the ways a pattern can match in a fixed order, and the first one
that goes through is the match: a greedy repetition tries to take more before it tries to take
less, and of two alternatives the left one comes first. `results` is that order as a list, and
`matchAt` its head.

`find` searches a text for the first position with a match, from the end of the match before,
or one further if that one was empty. `findAll` calls it until there is no match any more.
`findAll_total` says that this ends, for every pattern, and `Scan` what the matches are.
-/

namespace Regex

variable {α : Type}

/-- A pattern: a character of a class, as many of them as possible, one pattern after another,
    and one or else another. -/
inductive Pattern (α : Type)
  | one (p : α → Bool)
  | many (p : α → Bool)
  | seq (a b : Pattern α)
  | alt (a b : Pattern α)

/-- What is matched at the beginning of a text, and the rest of it. -/
abbrev Match (α : Type) := List α × List α

def Match.prepend (c : α) (m : Match α) : Match α := (c :: m.1, m.2)

namespace Pattern

def manyResults (p : α → Bool) : List α → List (Match α)
  | [] => [([], [])]
  | c :: s => (if p c then (manyResults p s).map (Match.prepend c) else []) ++ [([], c :: s)]

/-- The matches at the beginning of a text, in the order they are tried in. -/
def results : Pattern α → List α → List (Match α)
  | one _, [] => []
  | one p, c :: s => if p c then [([c], s)] else []
  | many p, s => manyResults p s
  | seq a b, s => (a.results s).flatMap fun m => (b.results m.2).map fun n => (m.1 ++ n.1, n.2)
  | alt a b, s => a.results s ++ b.results s

def matchAt (r : Pattern α) (s : List α) : Option (Match α) := (r.results s).head?

/-! ## What a match is -/

theorem manyResults_append {p : α → Bool} {s : List α} {m : Match α} (h : m ∈ manyResults p s) :
    m.1 ++ m.2 = s ∧ ∀ c ∈ m.1, p c = true := by
  induction s generalizing m with
  | nil =>
    obtain rfl : m = ([], []) := by simpa [manyResults] using h
    exact ⟨rfl, by simp⟩
  | cons c s ih =>
    rw [manyResults] at h
    rcases List.mem_append.mp h with h | h
    · split at h
      · rename_i hc
        obtain ⟨n, hn, rfl⟩ := List.mem_map.mp h
        obtain ⟨happ, hall⟩ := ih hn
        refine ⟨congrArg (c :: ·) happ, ?_⟩
        intro d hd
        rcases List.mem_cons.mp hd with rfl | hd
        · exact hc
        · exact hall d hd
      · cases h
    · obtain rfl : m = ([], c :: s) := by simpa using h
      exact ⟨rfl, by simp⟩

theorem results_append {r : Pattern α} {s : List α} {m : Match α} (h : m ∈ r.results s) :
    m.1 ++ m.2 = s := by
  induction r generalizing s m with
  | one p =>
    cases s with
    | nil => cases h
    | cons c s =>
      rw [results] at h
      split at h
      · obtain rfl := List.mem_singleton.mp h
        rfl
      · cases h
  | many p => exact (manyResults_append h).1
  | seq a b iha ihb =>
    obtain ⟨k, hk, h⟩ := List.mem_flatMap.mp h
    obtain ⟨n, hn, rfl⟩ := List.mem_map.mp h
    rw [List.append_assoc, ihb hn, iha hk]
  | alt a b iha ihb =>
    rcases List.mem_append.mp h with h | h
    · exact iha h
    · exact ihb h

theorem matchAt_append {r : Pattern α} {s : List α} {m : Match α} (h : r.matchAt s = some m) :
    m.1 ++ m.2 = s :=
  results_append (List.mem_of_mem_head? h)

/-! ## How each pattern matches -/

section
variable (p : α → Bool) (a b : Pattern α) (c : α) (s : List α)

theorem matchAt_alt : (alt a b).matchAt s = (a.matchAt s).or (b.matchAt s) :=
  List.head?_append

/-- A repetition alone takes all it can. -/
theorem matchAt_many : (many p).matchAt s = some (s.takeWhile p, s.dropWhile p) := by
  show (manyResults p s).head? = _
  induction s with
  | nil => rfl
  | cons c s ih =>
    rw [manyResults, List.head?_append]
    by_cases hc : p c = true
    · rw [if_pos hc, List.head?_map, ih, List.takeWhile_cons_of_pos hc,
        List.dropWhile_cons_of_pos hc]
      rfl
    · rw [if_neg hc, List.takeWhile_cons_of_neg hc, List.dropWhile_cons_of_neg hc]
      rfl

theorem matchAt_one_seq :
    (seq (one p) b).matchAt (c :: s) =
      if p c then (b.matchAt s).map (Match.prepend c) else none := by
  show (List.flatMap _ (if p c then [([c], s)] else [])).head? = _
  by_cases hc : p c = true
  · rw [if_pos hc, if_pos hc, List.flatMap_singleton, List.head?_map]
    rfl
  · rw [if_neg hc, if_neg hc]
    rfl

/-- In front of another pattern a repetition first tries to take one more, and the pattern
    itself has its turn when that fails. -/
theorem matchAt_many_seq :
    (seq (many p) b).matchAt (c :: s) =
      (if p c then ((seq (many p) b).matchAt s).map (Match.prepend c) else none).or
        (b.matchAt (c :: s)) := by
  show (List.flatMap _ (manyResults p (c :: s))).head? = _
  rw [manyResults, List.flatMap_append, List.head?_append, List.flatMap_singleton]
  congr 1
  · by_cases hc : p c = true
    · rw [if_pos hc, if_pos hc, matchAt, results, ← List.head?_map, List.map_flatMap,
        List.flatMap_map]
      simp only [List.map_map]
      rfl
    · rw [if_neg hc, if_neg hc]
      rfl
  · rw [matchAt, List.head?_map]
    simp

end

end Pattern

/-! ## Searching a text -/

/-- A match by its position. -/
structure Span where
  start : Nat
  stop : Nat
deriving DecidableEq, Repr

namespace Span

/-- `group`: the text of a match. -/
def group (text : List α) (m : Span) : List α := (text.drop m.start).take (m.stop - m.start)

/-- Where the search goes on. -/
def next (m : Span) : Nat := if m.start = m.stop then m.stop + 1 else m.stop

end Span

namespace Pattern

/-- The first match in the rest of a text, which begins at the given position. -/
def search (r : Pattern α) (i : Nat) (s : List α) : Option Span :=
  match r.matchAt s with
  | some m => some ⟨i, i + m.1.length⟩
  | none =>
    match s with
    | [] => none
    | _ :: s => search r (i + 1) s

/-- The next match from a position on. -/
def find (r : Pattern α) (text : List α) (index : Nat) : Option Span :=
  if text.length < index then none else r.search index (text.drop index)

/-- The matches from a position on, or none if there are more calls than `fuel`. -/
def findAll (r : Pattern α) (text : List α) : Nat → Nat → Option (List Span)
  | 0, _ => none
  | fuel + 1, index =>
    match r.find text index with
    | none => some []
    | some m => (r.findAll text fuel m.next).map (m :: ·)

/-- What `find` is for: a match that begins at the position or behind it, and none before. -/
structure Found (r : Pattern α) (text : List α) (index : Nat) (m : Span) : Prop where
  from_le : index ≤ m.start
  start_le : m.start ≤ m.stop
  stop_le : m.stop ≤ text.length
  matched : r.matchAt (text.drop m.start) = some (m.group text, text.drop m.stop)
  skipped : ∀ j, index ≤ j → j < m.start → r.matchAt (text.drop j) = none

/-- No match from a position on. -/
def NoMatch (r : Pattern α) (text : List α) (index : Nat) : Prop :=
  ∀ j, index ≤ j → j ≤ text.length → r.matchAt (text.drop j) = none

section
variable {r : Pattern α} {text : List α}

theorem Found.of_matchAt {index : Nat} {m : Match α} (hindex : index ≤ text.length)
    (h : r.matchAt (text.drop index) = some m) :
    Found r text index ⟨index, index + m.1.length⟩ := by
  have happ := matchAt_append h
  have hlen : m.1.length + m.2.length = text.length - index := by
    rw [← List.length_append, happ, List.length_drop]
  have hgroup : m.1 = Span.group text ⟨index, index + m.1.length⟩ := by
    rw [Span.group, ← happ, Nat.add_sub_cancel_left, List.take_left]
  have hrest : m.2 = text.drop (index + m.1.length) := by
    rw [← List.drop_drop, ← happ, List.drop_left]
  refine ⟨Nat.le_refl index, by simp, by simp only; omega, ?_, ?_⟩
  · rw [h, ← hgroup, ← hrest]
  · intro j hj hlt
    exact absurd hlt (Nat.not_lt.mpr hj)

theorem Found.skip {index : Nat} {m : Span} (h : r.matchAt (text.drop index) = none)
    (hfound : Found r text (index + 1) m) : Found r text index m where
  from_le := Nat.le_of_succ_le hfound.from_le
  start_le := hfound.start_le
  stop_le := hfound.stop_le
  matched := hfound.matched
  skipped := by
    intro j hj hlt
    rcases Nat.eq_or_lt_of_le hj with rfl | hj
    · exact h
    · exact hfound.skipped j hj hlt

theorem NoMatch.skip {index : Nat} (h : r.matchAt (text.drop index) = none)
    (hnone : NoMatch r text (index + 1)) : NoMatch r text index := by
  intro j hj hle
  rcases Nat.eq_or_lt_of_le hj with rfl | hj
  · exact h
  · exact hnone j hj hle

theorem NoMatch.of_end {index : Nat} (hend : text.length ≤ index) (h : r.matchAt [] = none) :
    NoMatch r text index := by
  intro j hj _
  rw [List.drop_of_length_le (Nat.le_trans hend hj), h]

/-- The search finds the first match there is. -/
theorem search_spec (s : List α) {index : Nat} (hindex : index ≤ text.length)
    (hs : text.drop index = s) :
    match r.search index s with
    | some m => Found r text index m
    | none => NoMatch r text index := by
  induction s generalizing index with
  | nil =>
    cases hmatch : r.matchAt [] with
    | some m =>
      rw [search, hmatch]
      exact Found.of_matchAt hindex (hs ▸ hmatch)
    | none =>
      rw [search, hmatch]
      exact NoMatch.of_end (List.drop_eq_nil_iff.mp hs) hmatch
  | cons c s ih =>
    cases hmatch : r.matchAt (c :: s) with
    | some m =>
      rw [search, hmatch]
      exact Found.of_matchAt hindex (hs ▸ hmatch)
    | none =>
      have hlt : index < text.length := by
        by_contra hge
        rw [List.drop_eq_nil_iff.mpr (Nat.not_lt.mp hge)] at hs
        cases hs
      have hs' : text.drop (index + 1) = s := by
        rw [← List.drop_drop, hs]
        rfl
      have ih := ih hlt hs'
      rw [search, hmatch]
      dsimp only
      cases hsearch : r.search (index + 1) s with
      | some m =>
        rw [hsearch] at ih
        exact Found.skip (hs ▸ hmatch) ih
      | none =>
        rw [hsearch] at ih
        exact NoMatch.skip (hs ▸ hmatch) ih

theorem find_some {index : Nat} {m : Span} (h : r.find text index = some m) :
    Found r text index m := by
  rw [find] at h
  split at h
  · cases h
  · rename_i hindex
    have hspec := search_spec (r := r) _ (Nat.not_lt.mp hindex) rfl
    rwa [h] at hspec

theorem find_none {index : Nat} (h : r.find text index = none) : NoMatch r text index := by
  rw [find] at h
  split at h
  · rename_i hindex
    intro j hj hle
    omega
  · rename_i hindex
    have hspec := search_spec (r := r) _ (Nat.not_lt.mp hindex) rfl
    rwa [h] at hspec

end

/-! ## All the matches -/

/-- The matches from a position on, one after the other up to the last one. -/
inductive Scan (r : Pattern α) (text : List α) : Nat → List Span → Prop
  | done {index : Nat} (none : NoMatch r text index) : Scan r text index []
  | found {index : Nat} {m : Span} {rest : List Span} (first : Found r text index m)
      (others : Scan r text m.next rest) : Scan r text index (m :: rest)

section
variable {r : Pattern α} {text : List α} {fuel index : Nat} {ms : List Span}

/-- After a match the search goes on further to the right. -/
theorem Found.lt_next {m : Span} (h : Found r text index m) :
    index < m.next ∧ m.next ≤ text.length + 1 := by
  have hfrom := h.from_le
  have hstart := h.start_le
  have hstop := h.stop_le
  unfold Span.next
  split
  · omega
  · omega

theorem scan_of_findAll (h : r.findAll text fuel index = some ms) : Scan r text index ms := by
  induction fuel generalizing index ms with
  | zero => cases h
  | succ fuel ih =>
    rw [findAll] at h
    cases hfind : r.find text index with
    | none =>
      rw [hfind] at h
      cases h
      exact .done (find_none hfind)
    | some m =>
      rw [hfind] at h
      obtain ⟨rest, hrest, rfl⟩ := Option.map_eq_some_iff.mp h
      exact .found (find_some hfind) (ih hrest)

theorem findAll_succ (h : r.findAll text fuel index = some ms) :
    r.findAll text (fuel + 1) index = some ms := by
  induction fuel generalizing index ms with
  | zero => cases h
  | succ fuel ih =>
    rw [findAll] at h ⊢
    cases hfind : r.find text index with
    | none =>
      rw [hfind] at h
      exact h
    | some m =>
      rw [hfind] at h
      obtain ⟨rest, hrest, rfl⟩ := Option.map_eq_some_iff.mp h
      dsimp only
      rw [ih hrest]
      rfl

theorem findAll_le {fuel' : Nat} (hle : fuel ≤ fuel') (h : r.findAll text fuel index = some ms) :
    r.findAll text fuel' index = some ms := by
  induction hle with
  | refl => exact h
  | step _ ih => exact findAll_succ ih

/-- Each call begins to the right of the one before. -/
theorem findAll_of_fuel (hindex : index ≤ text.length + 1)
    (hfuel : text.length + 2 ≤ fuel + index) : ∃ ms, r.findAll text fuel index = some ms := by
  induction fuel generalizing index with
  | zero => omega
  | succ fuel ih =>
    rw [findAll]
    cases hfind : r.find text index with
    | none => exact ⟨[], rfl⟩
    | some m =>
      obtain ⟨hlt, hle⟩ := (find_some hfind).lt_next
      obtain ⟨rest, hrest⟩ := ih hle (by omega)
      refine ⟨m :: rest, ?_⟩
      dsimp only
      rw [hrest]
      rfl

/-- **The loop ends.** -/
theorem findAll_total (r : Pattern α) (text : List α) :
    ∃ ms, ∀ fuel, text.length + 2 ≤ fuel → r.findAll text fuel 0 = some ms := by
  have hfuel : text.length + 2 ≤ text.length + 2 + 0 := Nat.le_refl _
  obtain ⟨ms, hms⟩ := findAll_of_fuel (r := r) (Nat.zero_le _) hfuel
  exact ⟨ms, fun fuel hfuel => findAll_le hfuel hms⟩

theorem Scan.found_of_mem {m : Span} (h : Scan r text index ms) (hm : m ∈ ms) :
    ∃ index', index ≤ index' ∧ Found r text index' m := by
  induction h with
  | done _ => cases hm
  | found first _ ih =>
    rcases List.mem_cons.mp hm with rfl | hm
    · exact ⟨_, Nat.le_refl _, first⟩
    · obtain ⟨index', hle, hfound⟩ := ih hm
      exact ⟨index', Nat.le_trans (Nat.le_of_lt first.lt_next.1) hle, hfound⟩

/-- The matches are disjoint, and from left to right. -/
theorem Scan.pairwise (h : Scan r text index ms) : ms.Pairwise fun m n => m.stop ≤ n.start := by
  induction h with
  | done _ => exact .nil
  | @found index m rest first others ih =>
    refine .cons ?_ ih
    intro n hn
    obtain ⟨index', hle, hfound⟩ := others.found_of_mem hn
    have hfrom := hfound.from_le
    have hnext : m.stop ≤ m.next := by
      unfold Span.next
      split
      · exact Nat.le_succ _
      · exact Nat.le_refl _
    omega

/-- **Nothing is missed**: where no match is, none begins, if no match is empty. -/
theorem Scan.covers (hne : ∀ s m, r.matchAt s = some m → m.1 ≠ []) (h : Scan r text index ms)
    {j : Nat} (hj : index ≤ j) (hle : j ≤ text.length)
    (hmatch : r.matchAt (text.drop j) ≠ none) : ∃ m ∈ ms, m.start ≤ j ∧ j < m.stop := by
  induction h with
  | done hnone => exact absurd (hnone j hj hle) hmatch
  | @found index m rest first others ih =>
    by_cases hstart : m.start ≤ j
    · by_cases hstop : j < m.stop
      · exact ⟨m, List.mem_cons_self, hstart, hstop⟩
      · have hnext : m.next ≤ j := by
          have hgroup := hne _ _ first.matched
          have hproper : m.start ≠ m.stop := by
            intro heq
            exact hgroup (by rw [Span.group, heq, Nat.sub_self]; rfl)
          rw [Span.next, if_neg hproper]
          exact Nat.not_lt.mp hstop
        obtain ⟨n, hn, hcover⟩ := ih hnext
        exact ⟨n, List.mem_cons_of_mem m hn, hcover⟩
    · exact absurd (first.skipped j hj (Nat.not_le.mp hstart)) hmatch

end

end Pattern

end Regex
