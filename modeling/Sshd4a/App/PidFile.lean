import Sshd4a.App.ParseInt

/-!
# The pid file, on both sides

The server writes its pid into `dropbear.pid` when it has started, and a new service reads it, to
kill a server that an earlier service left behind. The two are different processes, and the
service ends a server by `SIGKILL`, so what the reader finds is what the writer had written when
it was killed: an opened file is empty until the text of the pid gets there, and the text can be
cut off anywhere.

`onCreate_iff` says at which points a server can be killed without harm to the next service.
-/

namespace Sshd4a

/-! ## `svr-main.c` -/

/-- A process id, as `getpid` returns it. -/
structure Pid where
  val : Nat
  pos : 0 < val
  lt : val < 0x80000000
deriving Repr

/-- `%d`. -/
def Pid.digits (pid : Pid) : JString := Nat.toDigits 10 pid.val

/-- `fprintf(pidfile, "%d\n", getpid())`. -/
def Pid.line (pid : Pid) : JString := pid.digits ++ ['\n']

/-- Where a server is when it is killed. -/
inductive KillPoint
  | beforeOpen
  /-- The file is open, and so many characters are in it; all of them, once it is closed. -/
  | written (count : Nat)
deriving DecidableEq, Repr

/-- `dropbear.pid`, as the reader finds it. -/
inductive PidFile
  | absent
  | unreadable
  | content (text : JString)
deriving DecidableEq, Repr

/-- The file before the server starts: there is none, or it has the line of an earlier one. -/
def earlierFile : Option Pid → PidFile
  | none => .absent
  | some earlier => .content earlier.line

/-- The file a killed server leaves. -/
def pidFileAfter (earlier : Option Pid) (pid : Pid) : KillPoint → PidFile
  | .beforeOpen => earlierFile earlier
  | .written count => .content (pid.line.take count)

/-! ## `SshdService.java` -/

/-- The exceptions `onCreate` can end with. -/
inductive JavaException
  | numberFormat
deriving DecidableEq, Repr

/-- `Integer.parseInt` of a line that may be null. -/
def parsePid : Option JString → Except JavaException Int
  | none => .error .numberFormat
  | some s =>
    match parseInt s with
    | none => .error .numberFormat
    | some pid => .ok pid

/-- `readPidFile`. Only an `IOException` is caught. -/
def readPidFile : PidFile → Except JavaException Int
  | .absent => .ok 0
  | .unreadable => .ok 0
  | .content text => parsePid (readAllLines text).head?

/-- `onCreate`: the pid `stopSshd` kills, if there is one. -/
def onCreate (file : PidFile) : Except JavaException (Option Int) :=
  match readPidFile file with
  | .error e => .error e
  | .ok pid => .ok (if 0 < pid then some pid else none)

/-! ## What is left behind -/

/-- A server wrote the pid as its own, to the last digit. -/
def WroteInFull (earlier : Option Pid) (pid : Pid) (point : KillPoint) (wrote : Pid) : Prop :=
  earlier = some wrote ∨
    (wrote = pid ∧ ∃ count, point = .written count ∧ pid.digits.length ≤ count)

/-- The next service starts, and kills no process but a server. -/
def StartsCleanly (earlier : Option Pid) (pid : Pid) (point : KillPoint) : Prop :=
  ∃ killed, onCreate (pidFileAfter earlier pid point) = .ok killed ∧
    ∀ target, killed = some target →
      ∃ wrote, WroteInFull earlier pid point wrote ∧ target = wrote.val

/-- The file ends before the last digit, and what there is of the pid is not that of the earlier
    server. -/
def CutShort (earlier : Option Pid) (pid : Pid) : KillPoint → Prop
  | .beforeOpen => False
  | .written count => count < pid.digits.length ∧
      ∀ before, earlier = some before → before.digits ≠ pid.digits.take count

/-! ## Digits -/

theorem digits_isDigit (pid : Pid) : ∀ c ∈ pid.digits, c.isDigit = true := fun _ hc =>
  Nat.isDigit_of_mem_toDigits (by decide) (by decide) hc

theorem digits_ne_nil (pid : Pid) : pid.digits ≠ [] := Nat.toDigits_ne_nil

/-- The beginning of the digits of a number are the digits of another one. -/
theorem take_toDigits {n count : Nat} (hn : 0 < n) (hcount : 0 < count) :
    ∃ m, 0 < m ∧ m ≤ n ∧ (Nat.toDigits 10 n).take count = Nat.toDigits 10 m := by
  induction n using Nat.strongRecOn with
  | ind n ih =>
    by_cases hall : (Nat.toDigits 10 n).length ≤ count
    · exact ⟨n, hn, Nat.le_refl n, List.take_of_length_le hall⟩
    · have hten : 10 ≤ n := by
        by_contra hlt
        rw [Nat.toDigits_of_lt_base (by omega), List.length_singleton] at hall
        omega
      obtain ⟨m, hm, hle, htake⟩ := ih (n / 10) (by omega) (by omega)
      refine ⟨m, hm, by omega, ?_⟩
      rw [Nat.toDigits_of_base_le (by decide) hten] at hall ⊢
      rw [List.length_append, List.length_singleton] at hall
      rw [List.take_append_of_le_length (by omega), htake]

theorem pid_of_take (pid : Pid) {count : Nat} (hcount : 0 < count) :
    ∃ shown : Pid, pid.digits.take count = shown.digits := by
  obtain ⟨m, hm, hle, htake⟩ := take_toDigits pid.pos hcount
  exact ⟨⟨m, hm, Nat.lt_of_le_of_lt hle pid.lt⟩, htake⟩

theorem digits_inj {pid pid' : Pid} (h : pid.digits = pid'.digits) : pid = pid' := by
  have hval : pid.val = pid'.val := by
    rw [← Nat.ofDigitChars_ten_toDigits (n := pid.val),
      ← Nat.ofDigitChars_ten_toDigits (n := pid'.val)]
    exact congrArg (Nat.ofDigitChars 10 · 0) h
  cases pid
  cases pid'
  subst hval
  rfl

/-! ## Reading -/

theorem readAllLinesFrom_free {text : JString} (h : ∀ c ∈ text, isLineEnd c = false)
    (line rest : JString) :
    readAllLinesFrom false line (text ++ rest) = readAllLinesFrom false (line ++ text) rest := by
  induction text generalizing line with
  | nil => rw [List.nil_append, List.append_nil]
  | cons c text ih =>
    have hc := h c List.mem_cons_self
    rw [isLineEnd, Bool.or_eq_false_iff] at hc
    rw [List.cons_append, readAllLinesFrom]
    simp only [hc.1, hc.2, Bool.false_and, Bool.false_eq_true, if_false]
    rw [ih (fun d hd => h d (List.mem_cons_of_mem _ hd)), List.append_assoc, List.singleton_append]

theorem lineEnd_of_digit {c : Char} (h : c.isDigit = true) : isLineEnd c = false := by
  rw [isLineEnd, Bool.or_eq_false_iff, beq_eq_false_iff_ne, beq_eq_false_iff_ne]
  constructor
  · rintro rfl
    exact absurd h (by decide)
  · rintro rfl
    exact absurd h (by decide)

/-- The first line of a file with the digits of a pid, with and without its end. -/
theorem readLine_digits (pid : Pid) :
    (readAllLines pid.digits).head? = some pid.digits ∧
      (readAllLines pid.line).head? = some pid.digits := by
  have hfree : ∀ c ∈ pid.digits, isLineEnd c = false := fun c hc =>
    lineEnd_of_digit (digits_isDigit pid c hc)
  have hne := digits_ne_nil pid
  constructor
  · have hread := readAllLinesFrom_free hfree [] []
    rw [List.append_nil, List.nil_append] at hread
    rw [readAllLines, hread, readAllLinesFrom, if_neg (by simpa using hne)]
    rfl
  · rw [readAllLines, Pid.line, readAllLinesFrom_free hfree [], List.nil_append]
    rfl

theorem parsePid_digits (pid : Pid) : parsePid (some pid.digits) = .ok (pid.val : Int) := by
  have hval : Nat.ofDigitChars 10 pid.digits 0 = pid.val := Nat.ofDigitChars_ten_toDigits
  have hparse := parseInt_of_isDigit (digits_isDigit pid) (digits_ne_nil pid)
    (by rw [hval]; exact pid.lt)
  rw [parsePid, hparse, hval]

/-- **A file with all digits** is read as the pid, and the pid is killed. -/
theorem onCreate_digits (pid : Pid) :
    onCreate (.content pid.digits) = .ok (some (pid.val : Int)) ∧
      onCreate (.content pid.line) = .ok (some (pid.val : Int)) := by
  obtain ⟨hdigits, hline⟩ := readLine_digits pid
  have hpos : (0 : Int) < pid.val := by
    have := pid.pos
    omega
  unfold onCreate readPidFile
  simp only [hdigits, hline, parsePid_digits, hpos, if_true, and_self]

/-- An empty one ends the service. -/
theorem onCreate_empty : onCreate (.content []) = .error .numberFormat := rfl

/-- What the next service makes of the file: nothing can be parsed, or it kills the pid whose
    digits are there. -/
theorem onCreate_written (pid : Pid) (count : Nat) :
    (count = 0 ∧ onCreate (.content (pid.line.take count)) = .error .numberFormat) ∨
      ∃ shown : Pid, shown.digits = pid.digits.take count ∧
        onCreate (.content (pid.line.take count)) = .ok (some (shown.val : Int)) := by
  by_cases hzero : count = 0
  · subst hzero
    exact Or.inl ⟨rfl, onCreate_empty⟩
  · refine Or.inr ?_
    by_cases hshort : count ≤ pid.digits.length
    · obtain ⟨shown, htake⟩ := pid_of_take pid (Nat.pos_of_ne_zero hzero)
      refine ⟨shown, htake.symm, ?_⟩
      rw [Pid.line, List.take_append_of_le_length hshort, htake]
      exact (onCreate_digits shown).1
    · have hall : pid.line.length ≤ count := by
        rw [Pid.line, List.length_append, List.length_singleton]
        omega
      refine ⟨pid, (List.take_of_length_le (by omega)).symm, ?_⟩
      rw [List.take_of_length_le hall]
      exact (onCreate_digits pid).2

/-- A process that is killed has to be a server. -/
theorem startsCleanly_iff_of_ok (earlier : Option Pid) (pid : Pid) (point : KillPoint) {shown : Pid}
    (hread : onCreate (pidFileAfter earlier pid point) = .ok (some (shown.val : Int))) :
    StartsCleanly earlier pid point ↔ WroteInFull earlier pid point shown := by
  constructor
  · rintro ⟨killed, hok, hkilled⟩
    cases hread.symm.trans hok
    obtain ⟨wrote, hwrote, hval⟩ := hkilled _ rfl
    have hsame : shown = wrote := by
      apply digits_inj
      unfold Pid.digits
      rw [Int.ofNat_inj.mp hval]
    rwa [hsame]
  · intro hwrote
    refine ⟨_, hread, ?_⟩
    intro target htarget
    exact ⟨shown, hwrote, (Option.some.inj htarget).symm⟩

/-- A pid that is there was written in full, or is what there is of another one. -/
theorem wroteInFull_iff {earlier : Option Pid} {pid shown : Pid} {count : Nat}
    (hshown : shown.digits = pid.digits.take count) :
    WroteInFull earlier pid (.written count) shown ↔ ¬ CutShort earlier pid (.written count) := by
  constructor
  · rintro (hearlier | ⟨-, count', hpoint, hlen⟩) ⟨hshort, hother⟩
    · exact hother shown hearlier hshown
    · cases hpoint
      omega
  · intro hnot
    by_cases hshort : count < pid.digits.length
    · have hex : ¬ ∀ before, earlier = some before → before.digits ≠ pid.digits.take count :=
        fun h => hnot ⟨hshort, h⟩
      push Not at hex
      obtain ⟨before, hearlier, hdigits⟩ := hex
      rw [hearlier, digits_inj (hdigits.trans hshown.symm)]
      exact Or.inl rfl
    · have hle := Nat.le_of_not_lt hshort
      rw [List.take_of_length_le hle] at hshown
      exact Or.inr ⟨digits_inj hshown, count, rfl, hle⟩

/-- **A killed server does no harm to the next service exactly when** its pid file was not cut
    short. -/
theorem onCreate_iff (earlier : Option Pid) (pid : Pid) (point : KillPoint) :
    StartsCleanly earlier pid point ↔ ¬ CutShort earlier pid point := by
  cases point with
  | beforeOpen =>
    refine iff_of_true ?_ (by simp [CutShort])
    cases earlier with
    | none => exact ⟨none, rfl, by simp⟩
    | some before =>
      rw [startsCleanly_iff_of_ok (some before) pid .beforeOpen (onCreate_digits before).2]
      exact Or.inl rfl
  | written count =>
    rcases onCreate_written pid count with ⟨hzero, hread⟩ | ⟨shown, hshown, hread⟩
    · refine iff_of_false ?_ (not_not.mpr ?_)
      · rintro ⟨killed, hok, -⟩
        cases hread.symm.trans hok
      · subst hzero
        refine ⟨List.length_pos_of_ne_nil (digits_ne_nil pid), ?_⟩
        intro before _ heq
        exact digits_ne_nil before heq
    · rw [startsCleanly_iff_of_ok earlier pid (.written count) hread]
      exact wroteInFull_iff hshown

/-- A server with the pid 4321 that is killed right after opening the file ends the next service
    with an exception, and one that has written `43` has process 43 killed. -/
theorem onCreate_cutShort :
    onCreate (pidFileAfter none ⟨4321, by decide, by decide⟩ (.written 0)) = .error .numberFormat ∧
      onCreate (pidFileAfter none ⟨4321, by decide, by decide⟩ (.written 2)) = .ok (some 43) ∧
      ¬ StartsCleanly none ⟨4321, by decide, by decide⟩ (.written 0) ∧
      ¬ StartsCleanly none ⟨4321, by decide, by decide⟩ (.written 2) := by
  refine ⟨rfl, by decide, ?_, ?_⟩
  · rintro ⟨killed, hok, -⟩
    cases hok
  · rintro ⟨killed, hok, hkilled⟩
    have hread : onCreate (pidFileAfter none ⟨4321, by decide, by decide⟩ (.written 2))
        = .ok (some 43) := by decide
    cases hread.symm.trans hok
    obtain ⟨wrote, hwrote, -⟩ := hkilled 43 rfl
    rcases hwrote with hwrote | ⟨-, count, hpoint, hlen⟩
    · cases hwrote
    · cases hpoint
      exact absurd hlen (by decide)

end Sshd4a
