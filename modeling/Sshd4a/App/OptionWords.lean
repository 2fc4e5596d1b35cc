import Mathlib.Data.List.Infix
import Sshd4a.App.Options

/-!
# The words of the options string

`CMD_OPTIONS_PATTERN` is to split at white space and to respect quotes. Its first alternative
is `\S*"([^"]*)"\S*`, with a greedy `\S*` in front: of the quotes of a word, the **last** one
that has another one behind it opens the quoted part of the match, and if the word has no more
than that, the quote that closes it is in a later word.

So what counts is which words, cut at white space alone, have a quote in them. A word without one
is a token. A word with one is a token if no later word has one, and otherwise it is joined with
everything up to the next word that has one (`splitOptions_cases`). `splitOptions_iff` compares
that with what the quotes say, and `portField_iff` with the test of the Settings screen, which
looks for the characters `-p` anywhere in the string.
-/

namespace Sshd4a

open Text

/-- A meaning of `\s`; a quote is never white space. -/
structure SpaceClass where
  isSpace : Char → Bool
  quote : isSpace '"' = false

def hasQuote (word : JString) : Bool := word.any (fun c => c == '"')

theorem SpaceClass.ne_quote {S : SpaceClass} {c : Char} (hc : S.isSpace c = true) : c ≠ '"' := by
  rintro rfl
  rw [S.quote] at hc
  cases hc

section
variable (S : SpaceClass)

/-- A stretch of text without white space, up to white space or the end. -/
structure Stretch (word rest : JString) : Prop where
  noSpace : ∀ c ∈ word, S.isSpace c = false
  stops : ∀ c ∈ rest.head?, S.isSpace c = true

variable {S}

theorem Stretch.span {word rest : JString} (h : Stretch S word rest) :
    (word ++ rest).takeWhile (fun c => !S.isSpace c) = word ∧
      (word ++ rest).dropWhile (fun c => !S.isSpace c) = rest :=
  span_stretch (fun c hc => by rw [h.noSpace c hc]; rfl) (fun c hc => by rw [h.stops c hc]; rfl)

theorem stretch_span (s : JString) :
    Stretch S (s.takeWhile fun c => !S.isSpace c) (s.dropWhile fun c => !S.isSpace c) where
  noSpace := by
    intro c hc
    simpa using List.mem_takeWhile_imp hc
  stops := by
    intro c hc
    have := List.head?_dropWhile_not (fun c => !S.isSpace c) s
    rw [hc] at this
    simpa using this

/-- A word does not end at a quote. -/
theorem Stretch.exists_space {word a b : JString} (h : Stretch S word (a ++ '"' :: b)) :
    ∃ c ∈ a, S.isSpace c = true := by
  cases a with
  | nil => exact absurd rfl (S.ne_quote (h.stops '"' rfl))
  | cons c a => exact ⟨c, List.mem_cons_self, h.stops c rfl⟩

theorem Stretch.of_quote {word a b : JString} (h : Stretch S word (a ++ '"' :: b)) (b' : JString) :
    Stretch S word (a ++ '"' :: b') where
  noSpace := h.noSpace
  stops := by
    intro c hc
    refine h.stops c ?_
    cases a with
    | nil => exact hc
    | cons d a => exact hc

/-- A word with quotes, at its last one. -/
theorem last_quote {word : JString} (h : '"' ∈ word) :
    ∃ front back, word = front ++ '"' :: back ∧ '"' ∉ back := by
  obtain ⟨front, x, back, rfl, hx, hback⟩ :=
    exists_last (p := fun c => c == '"') ⟨'"', h, by simp⟩
  obtain rfl : x = '"' := by simpa using hx
  exact ⟨front, back, rfl, fun hmem => by simpa using hback '"' hmem⟩

/-! ## One match -/

theorem closeQuote_of_quote {a b : JString} (ha : '"' ∉ a) :
    closeQuote S.isSpace (a ++ '"' :: b) =
      some (a ++ '"' :: b.takeWhile (fun c => !S.isSpace c),
        b.dropWhile (fun c => !S.isSpace c)) := by
  have hfree : ∀ c ∈ a, (c != '"') = true := by
    intro c hc
    rw [bne_iff_ne]
    rintro rfl
    exact ha hc
  obtain ⟨htake, hdrop⟩ := span_stretch (r := '"' :: b) hfree (by simp)
  unfold closeQuote
  simp only [htake, hdrop]

theorem closeQuote_of_free {s : JString} (h : '"' ∉ s) : closeQuote S.isSpace s = none := by
  have hnil : s.dropWhile (fun c => c != '"') = [] := by
    rw [List.dropWhile_eq_nil_iff]
    intro c hc
    rw [bne_iff_ne]
    rintro rfl
    exact h hc
  unfold closeQuote
  rw [hnil]

/-- What is matched behind a stretch is matched with it in front. -/
theorem matchQuoted_append_some (front : JString) {s token after : JString}
    (hfront : ∀ c ∈ front, S.isSpace c = false)
    (h : matchQuoted S.isSpace s = some (token, after)) :
    matchQuoted S.isSpace (front ++ s) = some (front ++ token, after) := by
  induction front with
  | nil => exact h
  | cons c front ih =>
    have ih := ih fun d hd => hfront d (List.mem_cons_of_mem _ hd)
    rw [List.cons_append, matchQuoted, hfront c List.mem_cons_self, ih]
    rfl

/-- Where nothing is matched, a stretch without a quote in front does not help. -/
theorem matchQuoted_append_none {front s : JString} (hquote : '"' ∉ front)
    (h : matchQuoted S.isSpace s = none) : matchQuoted S.isSpace (front ++ s) = none := by
  induction front with
  | nil => exact h
  | cons c front ih =>
    have hc : (c == '"') = false := by
      rw [beq_eq_false_iff_ne]
      rintro rfl
      exact hquote List.mem_cons_self
    rw [List.cons_append, matchQuoted, ih fun hmem => hquote (List.mem_cons_of_mem _ hmem), hc]
    split
    · rfl
    · rfl

/-- The last quote of a word opens the quoted part, if there is a quote behind the word. -/
theorem matchToken_joined {word rest a b : JString} (h : Stretch S word rest)
    (hquote : '"' ∈ word) (hrest : rest = a ++ '"' :: b) (ha : '"' ∉ a) :
    matchToken S.isSpace (word ++ rest) =
      (word ++ (a ++ '"' :: b.takeWhile (fun c => !S.isSpace c)),
        b.dropWhile (fun c => !S.isSpace c)) := by
  obtain ⟨front, back, rfl, hback⟩ := last_quote hquote
  have hnone : matchQuoted S.isSpace (back ++ rest) = none :=
    matchQuoted_plain (fun c hc => h.noSpace c (by simp [hc])) hback h.stops
  have hopen : matchQuoted S.isSpace ('"' :: (back ++ rest)) =
      some ('"' :: (back ++ (a ++ '"' :: b.takeWhile (fun c => !S.isSpace c))),
        b.dropWhile (fun c => !S.isSpace c)) := by
    have hclose := closeQuote_of_quote (S := S) (a := back ++ a) (b := b)
      (by simp [hback, ha])
    rw [List.append_assoc, ← hrest] at hclose
    rw [matchQuoted, S.quote, hnone, hclose]
    simp
  have hall := matchQuoted_append_some front
    (fun c hc => h.noSpace c (List.mem_append_left _ hc)) hopen
  unfold matchToken
  rw [List.append_assoc, List.cons_append, hall, List.append_assoc, List.cons_append]

/-- Otherwise the word is the token. -/
theorem matchToken_alone {word rest : JString} (h : Stretch S word rest)
    (hrest : '"' ∈ word → '"' ∉ rest) : matchToken S.isSpace (word ++ rest) = (word, rest) := by
  have hplain : matchQuoted S.isSpace (word ++ rest) = none →
      matchToken S.isSpace (word ++ rest) = (word, rest) := by
    intro hnone
    unfold matchToken
    rw [hnone]
    exact Prod.ext h.span.1 h.span.2
  by_cases hquote : '"' ∈ word
  · have hfree := hrest hquote
    obtain ⟨front, back, rfl, hback⟩ := last_quote hquote
    have hback' : '"' ∉ back ++ rest := by simp [hback, hfree]
    have hnone : matchQuoted S.isSpace (back ++ rest) = none :=
      matchQuoted_plain (fun c hc => h.noSpace c (by simp [hc])) hback h.stops
    have hlast : matchQuoted S.isSpace ('"' :: (back ++ rest)) = none := by
      rw [matchQuoted, S.quote, hnone, closeQuote_of_free hback']
      rfl
    rw [List.append_assoc, List.cons_append] at hplain ⊢
    by_cases hfront : '"' ∈ front
    · -- the last quote but one opens, the last one closes
      obtain ⟨front', back', rfl, hback₂⟩ := last_quote hfront
      have hnone' := matchQuoted_append_none hback₂ hlast
      have hstretch : Stretch S back rest := ⟨fun c hc => h.noSpace c (by simp [hc]), h.stops⟩
      have hopen : matchQuoted S.isSpace ('"' :: (back' ++ '"' :: (back ++ rest))) =
          some ('"' :: (back' ++ '"' :: back), rest) := by
        rw [matchQuoted, S.quote, hnone', closeQuote_of_quote hback₂, hstretch.span.1,
          hstretch.span.2]
        rfl
      have hall := matchQuoted_append_some front'
        (fun c hc => h.noSpace c (by simp [hc])) hopen
      unfold matchToken
      rw [List.append_assoc, List.cons_append, hall]
      simp
    · exact hplain (matchQuoted_append_none hfront hlast)
  · exact hplain (matchQuoted_plain h.noSpace hquote h.stops)

/-! ## All matches -/

/-- **The induction rule for the matches**: white space is skipped, and then a word is a token by
    itself, or it is joined with everything up to the end of the next word with a quote. -/
theorem splitOptions_induction {motive : JString → Prop} (nil : motive [])
    (space : ∀ c s, S.isSpace c = true → motive s → motive (c :: s))
    (alone : ∀ word rest, word ≠ [] → Stretch S word rest → ('"' ∈ word → '"' ∉ rest) →
      motive rest → motive (word ++ rest))
    (joined : ∀ word a v rest, Stretch S word (a ++ '"' :: (v ++ rest)) → '"' ∈ word →
      '"' ∉ a → Stretch S v rest → motive rest → motive (word ++ (a ++ '"' :: (v ++ rest)))) :
    ∀ s, motive s := by
  intro s
  induction hn : s.length using Nat.strongRecOn generalizing s with
  | ind n ih =>
    cases s with
    | nil => exact nil
    | cons c s =>
      by_cases hc : S.isSpace c = true
      · exact space c s hc (ih s.length (by rw [← hn]; simp) s rfl)
      · have hstretch : Stretch S _ _ := stretch_span (S := S) (c :: s)
        have happ : (c :: s).takeWhile (fun c => !S.isSpace c)
            ++ (c :: s).dropWhile (fun c => !S.isSpace c) = c :: s :=
          List.takeWhile_append_dropWhile
        have hne : (c :: s).takeWhile (fun c => !S.isSpace c) ≠ [] := by
          simp [hc]
        generalize (c :: s).takeWhile (fun c => !S.isSpace c) = word at *
        generalize (c :: s).dropWhile (fun c => !S.isSpace c) = rest at *
        have hpos := List.length_pos_of_ne_nil hne
        have hlen := congrArg List.length happ
        rw [List.length_append, hn] at hlen
        rw [← happ]
        by_cases hquote : '"' ∈ word ∧ '"' ∈ rest
        · obtain ⟨a, b, hrest, ha⟩ := List.eq_append_cons_of_mem hquote.2
          have hb : b.takeWhile (fun c => !S.isSpace c) ++ b.dropWhile (fun c => !S.isSpace c)
              = b := List.takeWhile_append_dropWhile
          have hlen' := congrArg List.length hrest
          have hdrop := (List.dropWhile_suffix (l := b) (fun c => !S.isSpace c)).length_le
          rw [List.length_append, List.length_cons] at hlen'
          rw [hrest, ← hb] at hstretch ⊢
          exact joined word a _ _ hstretch hquote.1 ha (stretch_span b)
            (ih _ (by omega) _ rfl)
        · exact alone word rest hne hstretch (fun hw hr => hquote ⟨hw, hr⟩)
            (ih rest.length (by omega) rest rfl)

theorem splitOptions_match {s token after : JString} (h : ∀ c ∈ s.head?, S.isSpace c = false)
    (hne : s ≠ []) (hmatch : matchToken S.isSpace s = (token, after)) :
    splitOptions S.isSpace s = token :: splitOptions S.isSpace after := by
  cases s with
  | nil => exact absurd rfl hne
  | cons c s =>
    have hdrop : (c :: s).dropWhile S.isSpace = c :: s :=
      List.dropWhile_cons_of_neg (by simp [h c rfl])
    rw [splitOptions]
    split
    · rename_i heq
      rw [hdrop] at heq
      cases heq
    · rename_i heq
      rw [hdrop] at heq
      rw [← heq, hmatch]

theorem splitOptions_alone {word rest : JString} (hne : word ≠ []) (h : Stretch S word rest)
    (hrest : '"' ∈ word → '"' ∉ rest) :
    splitOptions S.isSpace (word ++ rest) = word :: splitOptions S.isSpace rest := by
  refine splitOptions_match ?_ ?_ (matchToken_alone h hrest)
  · intro c hc
    cases word with
    | nil => exact absurd rfl hne
    | cons d word =>
      obtain rfl : d = c := by simpa using hc
      exact h.noSpace d List.mem_cons_self
  · simp [hne]

theorem splitOptions_joined {word a v rest : JString}
    (h : Stretch S word (a ++ '"' :: (v ++ rest))) (hquote : '"' ∈ word) (ha : '"' ∉ a)
    (hv : Stretch S v rest) :
    splitOptions S.isSpace (word ++ (a ++ '"' :: (v ++ rest))) =
      (word ++ (a ++ '"' :: v)) :: splitOptions S.isSpace rest := by
  have hmatch := matchToken_joined h hquote rfl ha
  rw [hv.span.1, hv.span.2] at hmatch
  refine splitOptions_match ?_ ?_ hmatch
  · intro c hc
    cases word with
    | nil => cases hquote
    | cons d word =>
      obtain rfl : d = c := by simpa using hc
      exact h.noSpace d List.mem_cons_self
  · simp

/-! ## The token `-p` -/

/-- Among words, one is `-p` and has an even number of words with quotes in front of it, or none
    behind it; `odd` says what there is in front of all of them. -/
def FreeDashP (odd : Bool) : List JString → Prop
  | [] => False
  | word :: words =>
    (word = dashP ∧ (odd = false ∨ ∀ later ∈ words, '"' ∉ later)) ∨
      FreeDashP (odd != hasQuote word) words

theorem hasQuote_of_mem {word : JString} (h : '"' ∈ word) : hasQuote word = true :=
  List.any_eq_true.mpr ⟨'"', h, by simp⟩

theorem hasQuote_of_notMem {word : JString} (h : '"' ∉ word) : hasQuote word = false := by
  rw [hasQuote, List.any_eq_false]
  intro c hc heq
  obtain rfl : c = '"' := by simpa using heq
  exact h hc

theorem quote_notMem_dashP : '"' ∉ dashP := by decide

theorem freeDashP_of_no_quotes {words : List JString} (h : ∀ word ∈ words, '"' ∉ word)
    (odd : Bool) : FreeDashP odd words ↔ dashP ∈ words := by
  induction words generalizing odd with
  | nil => simp [FreeDashP]
  | cons word words ih =>
    have hlater : ∀ later ∈ words, '"' ∉ later := fun w hw => h w (List.mem_cons_of_mem _ hw)
    rw [FreeDashP, ih hlater, List.mem_cons, eq_comm (a := dashP)]
    constructor
    · rintro (⟨hword, -⟩ | hmem)
      · exact Or.inl hword
      · exact Or.inr hmem
    · rintro (hword | hmem)
      · exact Or.inl ⟨hword, Or.inr hlater⟩
      · exact Or.inr hmem

/-- Between two words with quotes nothing counts. -/
theorem freeDashP_between {mid : List JString} {q : JString} {words : List JString}
    (hmid : ∀ word ∈ mid, '"' ∉ word) (hq : '"' ∈ q) :
    FreeDashP true (mid ++ q :: words) ↔ FreeDashP false words := by
  induction mid with
  | nil =>
    have hne : q ≠ dashP := by
      rintro rfl
      exact quote_notMem_dashP hq
    rw [List.nil_append, FreeDashP, hasQuote_of_mem hq]
    simp [hne]
  | cons word mid ih =>
    rw [List.cons_append, FreeDashP, hasQuote_of_notMem (hmid word List.mem_cons_self), Bool.bne_false,
      ih fun w hw => hmid w (List.mem_cons_of_mem _ hw)]
    constructor
    · rintro (⟨-, hodd | hfree⟩ | h)
      · cases hodd
      · exact absurd hq (hfree q (by simp))
      · exact h
    · exact Or.inr

/-- The words of a token that was joined: the one it begins with, others without quotes, and the
    one it ends with. -/
theorem tokens_joined {word a v rest : JString} (h : Stretch S word (a ++ '"' :: (v ++ rest)))
    (hquote : '"' ∈ word) (ha : '"' ∉ a) (hv : Stretch S v rest) :
    ∃ mid q, tokens S.isSpace (word ++ (a ++ '"' :: (v ++ rest))) =
        word :: (mid ++ q :: tokens S.isSpace rest) ∧
      (∀ w ∈ mid, '"' ∉ w) ∧ '"' ∈ q := by
  -- there is white space behind the word, and so a last one in front of the quote
  obtain ⟨m, c, u, rfl, hc, hu⟩ := exists_last h.exists_space
  have hword : word ≠ [] := by
    rintro rfl
    cases hquote
  refine ⟨tokens S.isSpace m, u ++ '"' :: v, ?_, ?_, by simp⟩
  · rw [tokens_stretch h.noSpace hword h.stops, List.append_assoc, List.cons_append,
      tokens_append_cons hc]
    have hend : u ++ '"' :: (v ++ rest) = (u ++ '"' :: v) ++ rest := by simp
    rw [hend, tokens_stretch ?_ (by simp) hv.stops]
    intro d hd
    rcases List.mem_append.mp hd with hd | hd
    · exact hu d hd
    · rcases List.mem_cons.mp hd with rfl | hd
      · exact S.quote
      · exact hv.noSpace d hd
  · intro w hw hmem
    exact ha (List.mem_append_left _ (mem_of_mem_tokens hw _ hmem))

/-- **Which `-p` is a token.** -/
theorem dashP_mem_splitOptions (text : JString) :
    dashP ∈ splitOptions S.isSpace text ↔ FreeDashP false (tokens S.isSpace text) := by
  induction text using splitOptions_induction (S := S) with
  | nil =>
    rw [splitOptions_nil, tokens_nil]
    simp [FreeDashP]
  | space c s hc ih => rw [splitOptions_space hc, tokens_cons_sep hc, ih]
  | alone word rest hne h hrest ih =>
    rw [splitOptions_alone hne h hrest, tokens_stretch h.noSpace hne h.stops, FreeDashP,
      List.mem_cons, ih, eq_comm (a := dashP)]
    by_cases hquote : '"' ∈ word
    · have hfree : ∀ later ∈ tokens S.isSpace rest, '"' ∉ later := fun w hw hmem =>
        hrest hquote (mem_of_mem_tokens hw _ hmem)
      rw [freeDashP_of_no_quotes hfree, freeDashP_of_no_quotes hfree]
      simp
    · rw [hasQuote_of_notMem hquote]
      simp
  | joined word a v rest h hquote ha hv ih =>
    obtain ⟨mid, q, htokens, hmid, hq⟩ := tokens_joined h hquote ha hv
    have hne : dashP ≠ word ++ (a ++ '"' :: v) := by
      intro heq
      apply quote_notMem_dashP
      rw [heq]
      simp
    have hword : word ≠ dashP := by
      rintro rfl
      exact quote_notMem_dashP hquote
    rw [splitOptions_joined h hquote ha hv, htokens, FreeDashP, hasQuote_of_mem hquote]
    simp only [List.mem_cons, hne, false_or, hword, false_and, Bool.false_bne]
    rw [ih, freeDashP_between hmid hq]

/-! ## What the quotes say -/

variable (S) in
/-- Each character, with whether it separates: white space outside of every quoted segment.
    `inside` says whether a segment is open. -/
def markSeparators (inside : Bool) : JString → List (Char × Bool)
  | [] => []
  | c :: s => (c, !inside && S.isSpace c) :: markSeparators (inside != (c == '"')) s

variable (S) in
/-- The maximal runs without white space outside of a quoted segment. -/
def quotedWords (s : JString) : List JString :=
  (tokens Prod.snd (markSeparators S false s)).map (·.map Prod.fst)

/-- The number of quotes is odd. -/
def oddQuotes (s : JString) : Bool := s.count '"' % 2 == 1

variable (S) in
/-- The number of segments of a word, between its quotes, that have white space. -/
def spacedSegments (word : JString) : Nat :=
  (word.splitOnP (fun c => c == '"')).countP (·.any S.isSpace)

variable (S) in
/-- Every word has white space in at most one of its segments, and a word with quotes and no white
    space is the last one with quotes. -/
def NeatWords : List JString → Prop
  | [] => True
  | word :: words =>
    (spacedSegments S word ≤ 1 ∧
      (spacedSegments S word = 0 → '"' ∈ word → ∀ later ∈ words, '"' ∉ later)) ∧
    NeatWords words

theorem oddQuotes_append (a b : JString) : oddQuotes (a ++ b) = (oddQuotes a != oddQuotes b) := by
  unfold oddQuotes
  rw [List.count_append]
  rcases Nat.mod_two_eq_zero_or_one (a.count '"') with ha | ha <;>
    rcases Nat.mod_two_eq_zero_or_one (b.count '"') with hb | hb <;>
    simp [Nat.add_mod, ha, hb]

theorem oddQuotes_quote (s : JString) : oddQuotes ('"' :: s) = !oddQuotes s := by
  rw [← List.singleton_append, oddQuotes_append]
  cases oddQuotes s <;> rfl

theorem oddQuotes_of_free {s : JString} (h : '"' ∉ s) : oddQuotes s = false := by
  rw [oddQuotes, List.count_eq_zero_of_not_mem h]
  rfl

theorem oddQuotes_cons_of_ne {c : Char} (h : c ≠ '"') (s : JString) :
    oddQuotes (c :: s) = oddQuotes s := by
  rw [← List.singleton_append, oddQuotes_append, oddQuotes_of_free (by simpa using h.symm)]
  cases oddQuotes s <;> rfl

/-! ## One word -/

variable (S) in
/-- A text up to its first separator. -/
def spanWord (inside : Bool) : JString → JString × JString
  | [] => ([], [])
  | c :: s =>
    if !inside && S.isSpace c then ([], c :: s)
    else
      let after := spanWord (inside != (c == '"')) s
      (c :: after.1, after.2)

/-- The characters of a word, and none of them separates. -/
theorem markSeparators_span (inside : Bool) (s : JString) :
    markSeparators S inside s =
        (spanWord S inside s).1.map (·, false) ++ markSeparators S false (spanWord S inside s).2 ∧
      (spanWord S inside s).1 ++ (spanWord S inside s).2 = s ∧
      ∀ c ∈ (spanWord S inside s).2.head?, S.isSpace c = true := by
  induction s generalizing inside with
  | nil => exact ⟨rfl, rfl, by simp [spanWord]⟩
  | cons c s ih =>
    rw [spanWord]
    by_cases hsep : (!inside && S.isSpace c) = true
    · obtain ⟨rfl, hspace⟩ : inside = false ∧ S.isSpace c = true := by simpa using hsep
      rw [if_pos hsep]
      refine ⟨rfl, rfl, ?_⟩
      intro d hd
      obtain rfl : c = d := by simpa using hd
      exact hspace
    · obtain ⟨hmark, happ, hhead⟩ := ih (inside != (c == '"'))
      rw [if_neg hsep, markSeparators, hmark]
      refine ⟨?_, congrArg (c :: ·) happ, hhead⟩
      simp only [Bool.not_eq_true] at hsep
      rw [hsep]
      rfl

theorem quotedWords_nil : quotedWords S [] = [] := rfl

theorem quotedWords_space {c : Char} (hc : S.isSpace c = true) (s : JString) :
    quotedWords S (c :: s) = quotedWords S s := by
  have hquote : (c == '"') = false := beq_eq_false_iff_ne.mpr (S.ne_quote hc)
  unfold quotedWords
  rw [markSeparators, hquote, tokens_cons_sep (by simpa using hc)]
  rfl

/-- A word is the text up to the first separator. -/
theorem quotedWords_span {s : JString} (hne : (spanWord S false s).1 ≠ []) :
    quotedWords S s = (spanWord S false s).1 :: quotedWords S (spanWord S false s).2 := by
  obtain ⟨hmark, -, hhead⟩ := markSeparators_span (S := S) false s
  unfold quotedWords
  rw [hmark, tokens_stretch ?_ (by simpa using hne) ?_, List.map_cons, List.map_map]
  · congr 1
    exact List.map_id _
  · intro e he
    obtain ⟨c, -, rfl⟩ := List.mem_map.mp he
    rfl
  · intro e he
    cases hrest : (spanWord S false s).2 with
    | nil =>
      rw [hrest] at he
      cases he
    | cons c rest =>
      rw [hrest] at he hhead
      obtain rfl : (c, !false && S.isSpace c) = e := by simpa [markSeparators] using he
      exact hhead c rfl

/-- White space ends a word only outside of a segment. -/
theorem spanWord_noSpace {word : JString} (h : ∀ c ∈ word, S.isSpace c = false) (inside : Bool)
    (rest : JString) :
    spanWord S inside (word ++ rest) =
      (word ++ (spanWord S (inside != oddQuotes word) rest).1,
        (spanWord S (inside != oddQuotes word) rest).2) := by
  induction word generalizing inside with
  | nil =>
    rw [oddQuotes_of_free (by simp), Bool.bne_false]
    rfl
  | cons c word ih =>
    have hc := h c List.mem_cons_self
    have hodd : (inside != oddQuotes (c :: word)) = ((inside != (c == '"')) != oddQuotes word) := by
      by_cases hquote : c = '"'
      · subst hquote
        rw [oddQuotes_quote]
        cases inside <;> cases oddQuotes word <;> rfl
      · rw [oddQuotes_cons_of_ne hquote, beq_eq_false_iff_ne.mpr hquote, Bool.bne_false]
    rw [List.cons_append, spanWord, hc, Bool.and_false, if_neg Bool.false_ne_true,
      ih (fun d hd => h d (List.mem_cons_of_mem _ hd)), hodd]
    rfl

theorem spanWord_stop {rest : JString} (h : ∀ c ∈ rest.head?, S.isSpace c = true) :
    spanWord S false rest = ([], rest) := by
  cases rest with
  | nil => rfl
  | cons c rest => rw [spanWord, h c rfl, Bool.not_false, Bool.and_true, if_pos rfl]

/-- Inside of a segment everything belongs to the word, up to the closing quote. -/
theorem spanWord_inside {a : JString} (ha : '"' ∉ a) (b : JString) :
    spanWord S true (a ++ '"' :: b) =
      (a ++ '"' :: (spanWord S false b).1, (spanWord S false b).2) := by
  induction a with
  | nil => rfl
  | cons c a ih =>
    have hc : (c == '"') = false := by
      rw [beq_eq_false_iff_ne]
      rintro rfl
      exact ha List.mem_cons_self
    rw [List.cons_append, spanWord, hc, Bool.bne_false,
      ih fun hmem => ha (List.mem_cons_of_mem _ hmem)]
    rfl

theorem mem_of_mem_quotedWords {s word : JString} (h : word ∈ quotedWords S s) :
    ∀ c ∈ word, c ∈ s := by
  have hfst : ∀ (inside : Bool) (s : JString), (markSeparators S inside s).map Prod.fst = s := by
    intro inside s
    induction s generalizing inside with
    | nil => rfl
    | cons c s ih => rw [markSeparators, List.map_cons, ih]
  intro c hc
  obtain ⟨t, ht, rfl⟩ := List.mem_map.mp h
  obtain ⟨e, he, rfl⟩ := List.mem_map.mp hc
  rw [← hfst false s]
  exact List.mem_map_of_mem (mem_of_mem_tokens ht e he)

theorem exists_quotedWord {s : JString} (h : '"' ∈ s) : ∃ word ∈ quotedWords S s, '"' ∈ word := by
  have hmark : ∀ (inside : Bool) (s : JString), '"' ∈ s →
      ('"', false) ∈ markSeparators S inside s := by
    intro inside s hs
    induction s generalizing inside with
    | nil => cases hs
    | cons c s ih =>
      rw [markSeparators]
      rcases List.mem_cons.mp hs with rfl | hs
      · rw [S.quote, Bool.and_false]
        exact List.mem_cons_self
      · exact List.mem_cons_of_mem _ (ih _ hs)
  obtain ⟨t, ht, hmem⟩ := exists_token_of_mem (p := Prod.snd) (hmark false s h) rfl
  exact ⟨t.map Prod.fst, List.mem_map_of_mem ht, List.mem_map_of_mem hmem⟩

/-! ## Segments -/

theorem spacedSegments_append (a b : JString) :
    spacedSegments S (a ++ '"' :: b) = spacedSegments S a + spacedSegments S b := by
  unfold spacedSegments
  rw [List.splitOnP_append_cons a b (by simp), List.countP_append]

theorem spacedSegments_eq_zero {s : JString} (h : ∀ c ∈ s, S.isSpace c = false) :
    spacedSegments S s = 0 := by
  unfold spacedSegments
  rw [List.countP_eq_zero]
  intro segment hsegment hany
  obtain ⟨c, hc, hspace⟩ := List.any_eq_true.mp hany
  rw [h c (mem_of_mem_splitOnP hsegment c hc)] at hspace
  cases hspace

theorem spacedSegments_pos {s : JString} {c : Char} (hmem : c ∈ s) (hc : S.isSpace c = true) :
    0 < spacedSegments S s := by
  have hquote : (c == '"') = false := beq_eq_false_iff_ne.mpr (S.ne_quote hc)
  obtain ⟨segment, hsegment, hin⟩ := exists_token_of_mem (p := fun c => c == '"') hmem hquote
  unfold spacedSegments
  rw [List.countP_pos_iff]
  exact ⟨segment, List.mem_of_mem_filter hsegment, List.any_eq_true.mpr ⟨c, hin, hc⟩⟩

theorem spacedSegments_le_one {s : JString} (h : '"' ∉ s) : spacedSegments S s ≤ 1 := by
  unfold spacedSegments
  rw [List.splitOnP_eq_singleton]
  · exact List.countP_le_length
  · intro c hc
    rw [beq_eq_false_iff_ne]
    rintro rfl
    exact h hc

/-- The segments of a word with white space behind its last quote. -/
theorem spacedSegments_joined {word a b : JString} (h : Stretch S word (a ++ '"' :: b))
    (hquote : '"' ∈ word) (ha : '"' ∉ a) :
    spacedSegments S (word ++ (a ++ '"' :: b)) = 1 + spacedSegments S b := by
  obtain ⟨front, back, rfl, hback⟩ := last_quote hquote
  obtain ⟨c, hmem, hc⟩ := h.exists_space
  have hone : spacedSegments S (back ++ a) = 1 :=
    Nat.le_antisymm (spacedSegments_le_one (by simp [hback, ha]))
      (spacedSegments_pos (List.mem_append_right _ hmem) hc)
  have hzero : spacedSegments S front = 0 :=
    spacedSegments_eq_zero fun d hd => h.noSpace d (List.mem_append_left _ hd)
  have happ : (front ++ '"' :: back) ++ (a ++ '"' :: b)
      = front ++ '"' :: ((back ++ a) ++ '"' :: b) := by simp
  rw [happ, spacedSegments_append, spacedSegments_append, hone, hzero]
  omega

/-! ## Comparing the two -/

/-- A word without white space is a word of the text. -/
theorem quotedWords_alone {word rest : JString} (hne : word ≠ []) (h : Stretch S word rest)
    (heven : oddQuotes word = false) :
    quotedWords S (word ++ rest) = word :: quotedWords S rest := by
  have hspan : spanWord S false (word ++ rest) = (word, rest) := by
    rw [spanWord_noSpace h.noSpace, heven, Bool.bne_false, spanWord_stop h.stops, List.append_nil]
  have hword : (spanWord S false (word ++ rest)).1 ≠ [] := by
    rw [hspan]
    exact hne
  rw [quotedWords_span hword, hspan]

/-- A word whose last quote opens a segment goes on behind the quote that closes it. -/
theorem quotedWords_open {word a b : JString} (h : ∀ c ∈ word, S.isSpace c = false)
    (hodd : oddQuotes word = true) (ha : '"' ∉ a) :
    quotedWords S (word ++ (a ++ '"' :: b)) =
      (word ++ (a ++ '"' :: (spanWord S false b).1)) :: quotedWords S (spanWord S false b).2 := by
  have hspan : spanWord S false (word ++ (a ++ '"' :: b)) =
      (word ++ (a ++ '"' :: (spanWord S false b).1), (spanWord S false b).2) := by
    rw [spanWord_noSpace h, hodd]
    show (word ++ (spanWord S true (a ++ '"' :: b)).1, (spanWord S true (a ++ '"' :: b)).2) = _
    rw [spanWord_inside ha]
  have hword : (spanWord S false (word ++ (a ++ '"' :: b))).1 ≠ [] := by
    rw [hspan]
    simp
  rw [quotedWords_span hword, hspan]

/-- With an open segment, white space belongs to the word. -/
theorem spanWord_open {rest : JString} (h : ∀ c ∈ rest.head?, S.isSpace c = true)
    (hodd : oddQuotes rest = true) :
    ∃ c x, (spanWord S true rest).1 = c :: x ∧ S.isSpace c = true := by
  cases rest with
  | nil => exact absurd hodd (by decide)
  | cons c rest => exact ⟨c, _, rfl, h c rfl⟩

section
variable {word a v rest : JString} (h : Stretch S word (a ++ '"' :: (v ++ rest)))
  (hquote : '"' ∈ word) (ha : '"' ∉ a) (hv : Stretch S v rest)
include h hquote ha hv

/-- The quotes end with the word, and the match goes on. -/
theorem joined_balanced (hword : oddQuotes word = false) :
    splitOptions S.isSpace (word ++ (a ++ '"' :: (v ++ rest))) ≠
        quotedWords S (word ++ (a ++ '"' :: (v ++ rest))) ∧
      ¬ NeatWords S (quotedWords S (word ++ (a ++ '"' :: (v ++ rest)))) := by
  rw [splitOptions_joined h hquote ha hv, quotedWords_alone (List.ne_nil_of_mem hquote) h hword]
  constructor
  · intro heq
    have hlen := congrArg List.length (List.cons.inj heq).1
    simp at hlen
  · intro hneat
    obtain ⟨later, hlater, hmem⟩ := exists_quotedWord (S := S) (s := a ++ '"' :: (v ++ rest))
      (by simp)
    exact hneat.1.2 (spacedSegments_eq_zero h.noSpace) hquote later hlater hmem

/-- The match ends with the word, which has one segment with white space. -/
theorem joined_closed (hword : oddQuotes word = true) (hvodd : oddQuotes v = false) :
    quotedWords S (word ++ (a ++ '"' :: (v ++ rest))) =
        (word ++ (a ++ '"' :: v)) :: quotedWords S rest ∧
      spacedSegments S (word ++ (a ++ '"' :: v)) = 1 := by
  constructor
  · rw [quotedWords_open h.noSpace hword ha, spanWord_noSpace hv.noSpace, hvodd, Bool.bne_false,
      spanWord_stop hv.stops, List.append_nil]
  · rw [spacedSegments_joined (h.of_quote v) hquote ha, spacedSegments_eq_zero hv.noSpace]

/-- The match ends in a word that goes on, with white space in another segment. -/
theorem joined_reopened (hword : oddQuotes word = true) (hvodd : oddQuotes v = true)
    (hrest : oddQuotes rest = true) :
    splitOptions S.isSpace (word ++ (a ++ '"' :: (v ++ rest))) ≠
        quotedWords S (word ++ (a ++ '"' :: (v ++ rest))) ∧
      ¬ NeatWords S (quotedWords S (word ++ (a ++ '"' :: (v ++ rest)))) := by
  obtain ⟨c, x, hx, hc⟩ := spanWord_open hv.stops hrest
  rw [splitOptions_joined h hquote ha hv, quotedWords_open h.noSpace hword ha,
    spanWord_noSpace hv.noSpace, hvodd, Bool.false_bne, hx]
  constructor
  · intro heq
    have hlen := congrArg List.length (List.cons.inj heq).1
    simp at hlen
  · intro hneat
    have htwo := spacedSegments_joined (h.of_quote (v ++ c :: x)) hquote ha
    have hpos := spacedSegments_pos (s := v ++ c :: x) (by simp) hc
    have hle := hneat.1.1
    dsimp only at hle
    omega

end

/-- **Splitting respects the quotes exactly when** no word has white space in two segments, and
    no word with quotes and without white space has another word with quotes behind it. -/
theorem splitOptions_iff (S : SpaceClass) (options : JString) (h : oddQuotes options = false) :
    splitOptions S.isSpace options = quotedWords S options ↔
      NeatWords S (quotedWords S options) := by
  induction options using splitOptions_induction (S := S) with
  | nil =>
    rw [splitOptions_nil, quotedWords_nil]
    simp [NeatWords]
  | space c s hc ih =>
    rw [oddQuotes_cons_of_ne (S.ne_quote hc)] at h
    rw [splitOptions_space hc, quotedWords_space hc, ih h]
  | alone word rest hne hstretch hrest ih =>
    -- an odd number of quotes would have to be made even behind the word
    have heven : oddQuotes word = false ∧ oddQuotes rest = false := by
      rw [oddQuotes_append] at h
      by_cases hquote : '"' ∈ word
      · have hfree := oddQuotes_of_free (hrest hquote)
        rw [hfree, Bool.bne_false] at h
        exact ⟨h, hfree⟩
      · have hfree := oddQuotes_of_free hquote
        rw [hfree, Bool.false_bne] at h
        exact ⟨hfree, h⟩
    rw [splitOptions_alone hne hstretch hrest, quotedWords_alone hne hstretch heven.1,
      List.cons.injEq, NeatWords, ih heven.2, spacedSegments_eq_zero hstretch.noSpace]
    have hlast : '"' ∈ word → ∀ later ∈ quotedWords S rest, '"' ∉ later :=
      fun hquote later hlater hmem => hrest hquote (mem_of_mem_quotedWords hlater _ hmem)
    simp only [true_and, Nat.zero_le, forall_const]
    exact ⟨fun hneat => ⟨hlast, hneat⟩, fun hneat => hneat.2⟩
  | joined word a v rest hstretch hquote ha hv ih =>
    rw [oddQuotes_append, oddQuotes_append, oddQuotes_of_free ha, Bool.false_bne,
      oddQuotes_quote, oddQuotes_append] at h
    cases hword : oddQuotes word with
    | false =>
      obtain ⟨hsplit, hneat⟩ := joined_balanced hstretch hquote ha hv hword
      exact iff_of_false hsplit hneat
    | true =>
      cases hvodd : oddQuotes v with
      | false =>
        have hrest : oddQuotes rest = false := by simpa [hword, hvodd] using h
        obtain ⟨hwords, hone⟩ := joined_closed hstretch hquote ha hv hword hvodd
        rw [splitOptions_joined hstretch hquote ha hv, hwords, List.cons.injEq, NeatWords, hone,
          ih hrest]
        simp
      | true =>
        have hrest : oddQuotes rest = true := by simpa [hword, hvodd] using h
        obtain ⟨hsplit, hneat⟩ := joined_reopened hstretch hquote ha hv hword hvodd hrest
        exact iff_of_false hsplit hneat

end

/-- `\s`, which has no quote. -/
def patternClass : SpaceClass := ⟨patternSpace, by decide⟩

/-- `-c "a b"` -/
def oneQuoted : JString := ['-', 'c', ' ', '"', 'a', ' ', 'b', '"']

theorem splitOptions_iff_oneQuoted :
    splitOptions patternClass.isSpace oneQuoted = quotedWords patternClass oneQuoted ∧
      quotedWords patternClass oneQuoted = [['-', 'c'], ['"', 'a', ' ', 'b', '"']] := by
  have hwords : quotedWords patternClass oneQuoted = [['-', 'c'], ['"', 'a', ' ', 'b', '"']] := rfl
  refine ⟨(splitOptions_iff patternClass oneQuoted (by decide)).mpr ?_, hwords⟩
  rw [hwords]
  exact ⟨⟨by decide, by simp⟩, ⟨by decide, by simp⟩, trivial⟩

/-- `"a" "b"`, two quoted words. -/
def twoQuoted : JString := ['"', 'a', '"'] ++ ([' '] ++ '"' :: (['b', '"'] ++ []))

/-- They are one token. -/
theorem splitOptions_twoQuoted :
    oddQuotes twoQuoted = false ∧ splitOptions patternClass.isSpace twoQuoted = [twoQuoted] ∧
      quotedWords patternClass twoQuoted = [['"', 'a', '"'], ['"', 'b', '"']] ∧
      splitOptions patternClass.isSpace twoQuoted ≠ quotedWords patternClass twoQuoted := by
  have hsplit : splitOptions patternClass.isSpace twoQuoted = [twoQuoted] := by
    have hword : Stretch patternClass ['"', 'a', '"'] ([' '] ++ '"' :: (['b', '"'] ++ [])) :=
      ⟨by simp [patternClass, patternSpace], by simp [patternClass, patternSpace]⟩
    have hend : Stretch patternClass ['b', '"'] [] :=
      ⟨by simp [patternClass, patternSpace], by simp⟩
    rw [twoQuoted, splitOptions_joined hword (by decide) (by decide) hend, splitOptions_nil]
    rfl
  have hwords : quotedWords patternClass twoQuoted = [['"', 'a', '"'], ['"', 'b', '"']] := rfl
  refine ⟨by decide, hsplit, hwords, ?_⟩
  rw [hsplit, hwords]
  decide

/-! ## The port field -/

/-- `initPortField` and `onCmdLineOptionsChanged`: whether `SSHD_PORT` is enabled, for the value of
    the options setting. -/
def portFieldEnabled (value : Option JString) : Bool :=
  match value with
  | none => true
  | some s => !decide (dashP <:+: s)

/-- `getCmdLineOptions`, with that value stored. -/
def getCmdLineOptions (space : Char → Bool) (value : Option JString) : List JString :=
  splitOptions space (value.getD [])

/-- The port of the settings is used: `startSshd` adds it, and `getBindings` shows it. -/
structure PortMatters (userOptions : List JString) (port : Int) : Prop where
  added : startSshdArgs userOptions port =
    ["sshd".toList, ['-', 'e'], ['-', 'R'], ['-', 'F']] ++ [dashP, portString port] ++ userOptions
  shown : getBindings userOptions port = ['*' :: ':' :: portString port]

theorem portMatters_iff (userOptions : List JString) (port : Int) :
    PortMatters userOptions port ↔ dashP ∉ userOptions := by
  constructor
  · intro h hmem
    have hadded := h.added
    rw [startSshdArgs, if_pos hmem, List.append_nil] at hadded
    have hlen := congrArg List.length hadded
    simp only [List.length_append, List.length_cons, List.length_nil] at hlen
    omega
  · intro h
    exact ⟨by rw [startSshdArgs, if_neg h], by rw [getBindings, if_neg h]⟩

theorem infix_of_mem_tokens {space : Char → Bool} {text word : JString}
    (h : word ∈ tokens space text) : word <:+: text := by
  induction text using splitInduction space with
  | last l hl =>
    by_cases hne : l = []
    · rw [hne, tokens_nil] at h
      cases h
    · rw [tokens_of_free hl hne, List.mem_singleton] at h
      subst h
      exact List.infix_rfl
  | step a x rest ha hx ih =>
    rw [tokens_append_cons hx, List.mem_append] at h
    rcases h with h | h
    · by_cases hne : a = []
      · rw [hne, tokens_nil] at h
        cases h
      · rw [tokens_of_free ha hne, List.mem_singleton] at h
        rw [h]
        exact (List.prefix_append a _).isInfix
    · exact (ih h).trans ((List.suffix_cons x rest).isInfix.trans (List.suffix_append a _).isInfix)

theorem mem_of_freeDashP {odd : Bool} {words : List JString} (h : FreeDashP odd words) :
    dashP ∈ words := by
  induction words generalizing odd with
  | nil => exact absurd h (by simp [FreeDashP])
  | cons word words ih =>
    rcases h with ⟨rfl, -⟩ | h
    · exact List.mem_cons_self
    · exact List.mem_cons_of_mem _ (ih h)

/-- **The port field is enabled exactly when the port matters, if and only if** there is no `-p`
    among the characters of the options, or there is one that is a word of its own, with an even
    number of words with quotes in front of it or none behind it. -/
theorem portField_iff (S : SpaceClass) (value : Option JString) (port : Int) :
    (portFieldEnabled value = true ↔ PortMatters (getCmdLineOptions S.isSpace value) port) ↔
      (dashP <:+: value.getD [] → FreeDashP false (tokens S.isSpace (value.getD []))) := by
  have henabled : portFieldEnabled value = true ↔ ¬ dashP <:+: value.getD [] := by
    cases value with
    | none => simp [portFieldEnabled, dashP]
    | some s => simp [portFieldEnabled]
  have hcontains : FreeDashP false (tokens S.isSpace (value.getD [])) → dashP <:+: value.getD [] :=
    fun h => infix_of_mem_tokens (mem_of_freeDashP h)
  rw [henabled, portMatters_iff, getCmdLineOptions, dashP_mem_splitOptions]
  constructor
  · intro h hin
    by_contra hfree
    exact h.mpr hfree hin
  · intro h
    exact ⟨fun hnot hfree => hnot (hcontains hfree), fun hnot hin => hnot (h hin)⟩

/-- `-b x-p`: a banner file. -/
def bannerOptions : JString := ['-', 'b', ' '] ++ ['x', '-', 'p']

/-- The field is disabled, and the port is used all the same. -/
theorem portField_banner :
    portFieldEnabled (some bannerOptions) = false ∧
      PortMatters (getCmdLineOptions patternClass.isSpace (some bannerOptions)) 2222 := by
  have hin : dashP <:+: bannerOptions := ⟨['-', 'b', ' ', 'x'], [], rfl⟩
  refine ⟨by simp [portFieldEnabled, hin], ?_⟩
  have htokens : tokens patternClass.isSpace bannerOptions
      = [['-', 'b'], ['x', '-', 'p']] := by
    rw [show bannerOptions = ['-', 'b'] ++ ' ' :: ['x', '-', 'p'] from rfl,
      tokens_field_cons _ (by simp [patternClass, patternSpace]) (by simp) rfl,
      tokens_of_free (by simp [patternClass, patternSpace]) (by simp)]
  rw [portMatters_iff, getCmdLineOptions, Option.getD_some, dashP_mem_splitOptions, htokens]
  simp [FreeDashP, dashP]

end Sshd4a
