import Sshd4a.App.OptionWords
import Sshd4a.Lib.Regex

/-!
# The matches of the options pattern

`splitOptions` of `Prefs.java` is a loop over `matcher.find()`. The tokens of `App.Options` were
read off the pattern; here the pattern itself is matched, by a matcher that backtracks, and the
two agree (`splitOptions_of_scan`).

With the positions of the matches at hand it can be said that nothing is lost
(`splitOptions_spans`): the matches do not overlap, they begin and end with something, and what
is between them is white space. That is so for any string, whatever its quotes are.
-/

namespace Sshd4a

open Regex

section
variable (S : SpaceClass)

/-- `[^"]*"\S*`. -/
def closingPattern : Pattern Char :=
  .seq (.many fun c => c != '"') (.seq (.one fun c => c == '"') (.many fun c => !S.isSpace c))

/-- `\S*"([^"]*)"\S*`. -/
def quotedPattern : Pattern Char :=
  .seq (.many fun c => !S.isSpace c) (.seq (.one fun c => c == '"') (closingPattern S))

/-- `CMD_OPTIONS_PATTERN`, `\S*"([^"]*)"\S*|(\S+)`. Its groups are not used. -/
def cmdOptionsPattern : Pattern Char :=
  .alt (quotedPattern S) (.seq (.one fun c => !S.isSpace c) (.many fun c => !S.isSpace c))

/-- What the loop of `splitOptions` collects in up to `fuel` calls of `find`. -/
def findOptions (options : JString) (fuel : Nat) : Option (List JString) :=
  ((cmdOptionsPattern S).findAll options fuel 0).map (List.map (Span.group options))

/-- **Nothing is lost**: the matches are disjoint and in order, they begin and end with something
    that is not white space, and every such character is in exactly one of them. -/
structure Splits (options : JString) (spans : List Span) : Prop where
  ordered : spans.Pairwise fun m n => m.stop ≤ n.start
  inside : ∀ m ∈ spans, m.start < m.stop ∧ m.stop ≤ options.length
  begins : ∀ m ∈ spans, ∃ c, (m.group options).head? = some c ∧ S.isSpace c = false
  ends : ∀ m ∈ spans, ∃ c, (m.group options).getLast? = some c ∧ S.isSpace c = false
  once : ∀ i c, options[i]? = some c → S.isSpace c = false →
    ∃! k : Nat, ∃ m : Span, spans[k]? = some m ∧ m.start ≤ i ∧ i < m.stop

end

section
variable {S : SpaceClass}

/-! ## One match -/

theorem closeQuote_cons {c : Char} (hc : c ≠ '"') (s : JString) :
    closeQuote S.isSpace (c :: s) = (closeQuote S.isSpace s).map (Match.prepend c) := by
  have hpos : (c != '"') = true := bne_iff_ne.mpr hc
  unfold closeQuote
  rw [List.dropWhile_cons_of_pos (p := fun c => c != '"') hpos,
    List.takeWhile_cons_of_pos (p := fun c => c != '"') hpos]
  split
  · rfl
  · rfl

theorem matchAt_closingPattern (s : JString) :
    (closingPattern S).matchAt s = closeQuote S.isSpace s := by
  unfold closingPattern
  induction s with
  | nil => rfl
  | cons c s ih =>
    rw [Pattern.matchAt_many_seq, ih, Pattern.matchAt_one_seq, Pattern.matchAt_many]
    by_cases hc : c = '"'
    · subst hc
      rfl
    · have hne : (c == '"') = false := beq_eq_false_iff_ne.mpr hc
      rw [closeQuote_cons hc, if_pos (bne_iff_ne.mpr hc), hne]
      exact Option.or_none

theorem matchAt_quotedPattern (s : JString) :
    (quotedPattern S).matchAt s = matchQuoted S.isSpace s := by
  unfold quotedPattern
  induction s with
  | nil => rfl
  | cons c s ih =>
    rw [Pattern.matchAt_many_seq, ih, Pattern.matchAt_one_seq, matchAt_closingPattern, matchQuoted]
    cases hc : S.isSpace c with
    | true =>
      have hne : (c == '"') = false := beq_eq_false_iff_ne.mpr (S.ne_quote hc)
      rw [hne]
      rfl
    | false =>
      cases hrest : matchQuoted S.isSpace s with
      | none => rfl
      | some m => rfl

/-- At a character that is not white space there is a match, and at white space there is none. -/
theorem matchAt_cmdOptionsPattern {c : Char} (hc : S.isSpace c = false) (s : JString) :
    (cmdOptionsPattern S).matchAt (c :: s) = some (matchToken S.isSpace (c :: s)) := by
  have hpos : (!S.isSpace c) = true := by rw [hc, Bool.not_false]
  rw [cmdOptionsPattern, Pattern.matchAt_alt, matchAt_quotedPattern, Pattern.matchAt_one_seq,
    Pattern.matchAt_many, if_pos hpos]
  unfold matchToken
  cases hquoted : matchQuoted S.isSpace (c :: s) with
  | some m => rfl
  | none =>
    dsimp only
    rw [List.takeWhile_cons_of_pos (p := fun c => !S.isSpace c) hpos,
      List.dropWhile_cons_of_pos (p := fun c => !S.isSpace c) hpos]
    rfl

theorem matchAt_cmdOptionsPattern_space {c : Char} (hc : S.isSpace c = true) (s : JString) :
    (cmdOptionsPattern S).matchAt (c :: s) = none := by
  rw [cmdOptionsPattern, Pattern.matchAt_alt, matchAt_quotedPattern, Pattern.matchAt_one_seq,
    matchQuoted, if_pos hc, hc]
  rfl

/-- What matches begins with a character that is not white space. -/
theorem matchAt_some {s : JString} {m : Match Char}
    (h : (cmdOptionsPattern S).matchAt s = some m) :
    (∃ c rest, s = c :: rest ∧ S.isSpace c = false) ∧ matchToken S.isSpace s = m := by
  cases s with
  | nil => cases h
  | cons c s =>
    cases hc : S.isSpace c with
    | true =>
      rw [matchAt_cmdOptionsPattern_space hc] at h
      cases h
    | false =>
      rw [matchAt_cmdOptionsPattern hc] at h
      exact ⟨⟨c, s, rfl, hc⟩, Option.some.inj h⟩

/-! ## The ends of a token -/

/-- Up to the closing quote, and something behind it that is not white space. -/
theorem closeQuote_shape {s : JString} {m : JString × JString}
    (h : closeQuote S.isSpace s = some m) :
    ∃ front back, m.1 = front ++ '"' :: back ∧ ∀ c ∈ back, S.isSpace c = false := by
  unfold closeQuote at h
  split at h
  · cases h
  · rename_i quote rest hrest
    cases h
    obtain rfl : quote = '"' := by simpa using Text.head_of_dropWhile hrest
    refine ⟨_, _, rfl, ?_⟩
    intro c hc
    simpa using List.mem_takeWhile_imp hc

theorem closeQuote_getLast {s : JString} {m : JString × JString}
    (h : closeQuote S.isSpace s = some m) :
    m.1 ≠ [] ∧ ∀ c ∈ m.1.getLast?, S.isSpace c = false := by
  obtain ⟨front, back, hm, hback⟩ := closeQuote_shape h
  rw [hm]
  refine ⟨by simp, ?_⟩
  intro c hc
  rw [List.getLast?_append_of_ne_nil _ (List.cons_ne_nil _ _)] at hc
  rcases List.mem_cons.mp (List.mem_of_getLast? hc) with rfl | hc
  · exact S.quote
  · exact hback c hc

theorem matchQuoted_getLast {s : JString} {m : JString × JString}
    (h : matchQuoted S.isSpace s = some m) : ∀ c ∈ m.1.getLast?, S.isSpace c = false := by
  induction s generalizing m with
  | nil => cases h
  | cons c s ih =>
    rw [matchQuoted] at h
    split at h
    · cases h
    · split at h
      · rename_i token after hrest
        cases h
        dsimp only
        rw [List.getLast?_cons_of_ne_nil (matchQuoted_append hrest).2]
        exact ih hrest
      · split at h
        · obtain ⟨m', hm', rfl⟩ := Option.map_eq_some_iff.mp h
          obtain ⟨hne, hlast⟩ := closeQuote_getLast hm'
          dsimp only
          rw [List.getLast?_cons_of_ne_nil hne]
          exact hlast
        · cases h

theorem matchToken_getLast (s : JString) :
    ∀ c ∈ (matchToken S.isSpace s).1.getLast?, S.isSpace c = false := by
  unfold matchToken
  split
  · rename_i m hm
    exact matchQuoted_getLast hm
  · intro c hc
    simpa using List.mem_takeWhile_imp (List.mem_of_getLast? hc)

theorem matchToken_head {c : Char} {s : JString} (hc : S.isSpace c = false) :
    (matchToken S.isSpace (c :: s)).1.head? = some c := by
  obtain ⟨happ, hne⟩ := matchToken_append c s hc
  obtain ⟨d, token, htoken⟩ := List.exists_cons_of_ne_nil hne
  rw [htoken] at happ ⊢
  rw [List.head?_cons, (List.cons.inj happ).1]

/-- No match is empty. -/
theorem matchAt_ne_nil (s : JString) (m : Match Char)
    (h : (cmdOptionsPattern S).matchAt s = some m) : m.1 ≠ [] := by
  obtain ⟨⟨c, rest, rfl, hc⟩, rfl⟩ := matchAt_some h
  exact (matchToken_append c rest hc).2

/-! ## All matches -/

section
variable {options : JString} {index : Nat} {spans : List Span}

theorem Found.next_eq {m : Span} (h : Pattern.Found (cmdOptionsPattern S) options index m) :
    m.start < m.stop ∧ m.next = m.stop := by
  have hne : m.start ≠ m.stop := by
    intro heq
    refine matchAt_ne_nil _ _ h.matched ?_
    rw [Span.group, heq, Nat.sub_self]
    rfl
  exact ⟨Nat.lt_of_le_of_ne h.start_le hne, if_neg hne⟩

/-- Where nothing matches the loop of the tokens skips white space as well. -/
theorem splitOptions_drop {stop : Nat} (hstop : stop ≤ options.length) (hle : index ≤ stop)
    (hskip : ∀ j, index ≤ j → j < stop → (cmdOptionsPattern S).matchAt (options.drop j) = none) :
    splitOptions S.isSpace (options.drop index) = splitOptions S.isSpace (options.drop stop) := by
  induction hle with
  | refl => rfl
  | @step stop hle ih =>
    have hlt : stop < options.length := hstop
    rw [ih (Nat.le_of_lt hlt) fun j hj hj' => hskip j hj (Nat.lt_succ_of_lt hj'),
      List.drop_eq_getElem_cons hlt]
    have hnone := hskip stop hle (Nat.lt_succ_self stop)
    rw [List.drop_eq_getElem_cons hlt] at hnone
    cases hc : S.isSpace options[stop] with
    | true => rw [splitOptions_space hc]
    | false =>
      rw [matchAt_cmdOptionsPattern hc] at hnone
      cases hnone

/-- **The tokens are the matches.** -/
theorem splitOptions_of_scan (h : Pattern.Scan (cmdOptionsPattern S) options index spans)
    (hindex : index ≤ options.length) :
    splitOptions S.isSpace (options.drop index) = spans.map (Span.group options) := by
  induction h with
  | done hnone =>
    rw [splitOptions_drop (Nat.le_refl _) hindex fun j hj hlt => hnone j hj (Nat.le_of_lt hlt),
      List.drop_length, splitOptions_nil]
    rfl
  | @found index m rest first others ih =>
    obtain ⟨hlt, hnext⟩ := Found.next_eq first
    rw [hnext] at ih
    obtain ⟨⟨c, text, htext, hc⟩, htoken⟩ := matchAt_some first.matched
    have hstart : m.start ≤ options.length := Nat.le_trans first.start_le first.stop_le
    have hhead : ∀ d ∈ (options.drop m.start).head?, S.isSpace d = false := by
      rw [htext]
      intro d hd
      obtain rfl : c = d := by simpa using hd
      exact hc
    have hne : options.drop m.start ≠ [] := by simp [htext]
    rw [splitOptions_drop hstart first.from_le first.skipped,
      splitOptions_match hhead hne htoken, ih first.stop_le]
    rfl

theorem splits_of_scan (h : Pattern.Scan (cmdOptionsPattern S) options 0 spans) :
    Splits S options spans where
  ordered := h.pairwise
  inside := by
    intro m hm
    obtain ⟨index, -, hfound⟩ := h.found_of_mem hm
    exact ⟨(Found.next_eq hfound).1, hfound.stop_le⟩
  begins := by
    intro m hm
    obtain ⟨index, -, hfound⟩ := h.found_of_mem hm
    obtain ⟨⟨c, text, htext, hc⟩, htoken⟩ := matchAt_some hfound.matched
    have hhead := matchToken_head (s := text) hc
    rw [← htext, htoken] at hhead
    exact ⟨c, hhead, hc⟩
  ends := by
    intro m hm
    obtain ⟨index, -, hfound⟩ := h.found_of_mem hm
    have htoken := (matchAt_some hfound.matched).2
    have hlast := matchToken_getLast (S := S) (options.drop m.start)
    rw [htoken] at hlast
    have hne := matchAt_ne_nil _ _ hfound.matched
    exact ⟨_, List.getLast?_eq_some_getLast hne, hlast _ (List.getLast?_eq_some_getLast hne)⟩
  once := by
    intro i c hi hc
    obtain ⟨hlt, hget⟩ := List.getElem?_eq_some_iff.mp hi
    have hmatch : (cmdOptionsPattern S).matchAt (options.drop i) ≠ none := by
      rw [List.drop_eq_getElem_cons hlt, hget, matchAt_cmdOptionsPattern hc]
      exact Option.some_ne_none _
    obtain ⟨m, hm, hcover⟩ := h.covers matchAt_ne_nil (Nat.zero_le i) (Nat.le_of_lt hlt) hmatch
    obtain ⟨k, hk⟩ := List.mem_iff_getElem?.mp hm
    refine ⟨k, ⟨m, hk, hcover⟩, ?_⟩
    -- two matches with the same position would not be disjoint
    rintro k' ⟨m', hk', hcover'⟩
    obtain ⟨hlen, rfl⟩ := List.getElem?_eq_some_iff.mp hk
    obtain ⟨hlen', rfl⟩ := List.getElem?_eq_some_iff.mp hk'
    have hordered := List.pairwise_iff_getElem.mp h.pairwise
    rcases Nat.lt_trichotomy k' k with hlt | heq | hlt
    · have := hordered k' k hlen' hlen hlt
      omega
    · exact heq
    · have := hordered k k' hlen hlen' hlt
      omega

end

end

/-- **The loop ends, and loses nothing.** -/
theorem splitOptions_spans (S : SpaceClass) (options : JString) :
    ∃ spans : List Span,
      (∀ fuel, options.length + 2 ≤ fuel →
        findOptions S options fuel = some (spans.map (Span.group options))) ∧
      splitOptions S.isSpace options = spans.map (Span.group options) ∧
      Splits S options spans := by
  obtain ⟨spans, hspans⟩ := Pattern.findAll_total (cmdOptionsPattern S) options
  have hscan := Pattern.scan_of_findAll (hspans _ (Nat.le_refl _))
  refine ⟨spans, ?_, splitOptions_of_scan hscan (Nat.zero_le _), splits_of_scan hscan⟩
  intro fuel hfuel
  rw [findOptions, hspans fuel hfuel]
  rfl

end Sshd4a
