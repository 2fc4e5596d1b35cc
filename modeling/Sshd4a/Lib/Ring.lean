import Mathlib.Data.List.Rotate

/-!
# Rings of cells

A block of cells that is used as a ring: a run of `len` cells starts at `start` and goes on at
the beginning of the block when it reaches the end. The run is what a queue kept in the ring
contains.

Three things are done with such a run, and each has one lemma. It is taken from the front
(`run_advance`), it is extended at the back by a write that does not cross the end of the block
(`run_overwrite`), and it is read in at most two pieces, neither of which crosses the end
(`run_pieces`). The first two also say where the run starts and ends afterwards: nothing here
depends on how the positions are kept, only on their values modulo the size.
-/

namespace Ring

variable {α : Type*} {cells data : List α} {start len pos n : Nat}

/-- `len` cells from `start` on, going round at the end. -/
def run (cells : List α) (start len : Nat) : List α := (cells.rotate start).take len

/-- The block after a write of `data` at `pos`. -/
def overwrite (cells : List α) (pos : Nat) (data : List α) : List α :=
  cells.take pos ++ (data ++ cells.drop (pos + data.length))

@[simp] theorem run_zero (cells : List α) (start : Nat) : run cells start 0 = [] := rfl

theorem length_run (h : len ≤ cells.length) : (run cells start len).length = len := by
  rw [run, List.length_take, List.length_rotate, Nat.min_eq_left h]

theorem length_overwrite (h : pos + data.length ≤ cells.length) :
    (overwrite cells pos data).length = cells.length := by
  simp only [overwrite, List.length_append, List.length_take, List.length_drop]
  omega

/-- A write that replaces one part of three. -/
theorem overwrite_middle {before old after : List α} (hpos : before.length = pos)
    (hlen : old.length = data.length) :
    overwrite (before ++ (old ++ after)) pos data = before ++ (data ++ after) := by
  subst hpos
  rw [overwrite, List.take_left, ← List.append_assoc before old,
    List.drop_left' (by rw [List.length_append, hlen])]

theorem overwrite_start {old after : List α} (hlen : old.length = data.length) :
    overwrite (old ++ after) 0 data = data ++ after := by
  rw [overwrite, List.take_zero, List.nil_append, Nat.zero_add, List.drop_left' hlen]

theorem overwrite_all (hlen : cells.length = data.length) : overwrite cells 0 data = data := by
  rw [← List.append_nil cells, overwrite_start hlen, List.append_nil]

/-- A write at the end. -/
theorem overwrite_end (hpos : cells.length = pos) : overwrite cells pos data = cells ++ data := by
  subst hpos
  rw [overwrite, List.take_length, List.drop_of_length_le (Nat.le_add_right _ _), List.append_nil]

/-- What a write shows in a beginning of the block that it does not leave a gap after. -/
theorem take_overwrite (hpos : pos ≤ len) (hlen : len ≤ cells.length) :
    (overwrite cells pos data).take (max len (pos + data.length))
      = overwrite (cells.take len) pos data := by
  rw [overwrite, overwrite, List.take_append, List.length_take, List.take_take, List.take_take,
    Nat.min_eq_right (by omega : pos ≤ max len (pos + data.length)),
    Nat.min_eq_left hpos, Nat.min_eq_left (Nat.le_trans hpos hlen), List.take_append,
    List.take_of_length_le (l := data) (by omega), List.drop_take]
  congr 3
  omega

/-- A run that starts inside the block is what stands up to the end, then what stands at the
    beginning. -/
theorem run_eq (hstart : start ≤ cells.length) :
    run cells start len
      = (cells.drop start).take len ++ cells.take (min (len - (cells.length - start)) start) := by
  rw [run, List.rotate_eq_drop_append_take hstart, List.take_append, List.length_drop,
    List.take_take]

/-- **Taking from the front.** -/
theorem run_advance (hn : n ≤ len) (hlen : len ≤ cells.length) :
    run cells ((start + n) % cells.length) (len - n) = (run cells start len).drop n := by
  have hback : n ≤ (cells.rotate start).length := by
    rw [List.length_rotate]
    exact Nat.le_trans hn hlen
  rw [run, run, List.rotate_mod, ← List.rotate_rotate, List.rotate_eq_drop_append_take hback,
    List.take_append_of_le_length, List.drop_take]
  rw [List.length_drop, List.length_rotate]
  omega

/-- **Extending at the back**, by a write that stays inside the block. -/
theorem run_overwrite (hstart : start < cells.length) (hlen : len + data.length ≤ cells.length)
    (hpos : pos = (start + len) % cells.length) (hfits : pos + data.length ≤ cells.length) :
    run (overwrite cells pos data) start (len + data.length) = run cells start len ++ data := by
  rw [run_eq (Nat.le_of_lt (by rw [length_overwrite hfits]; exact hstart)),
    run_eq (Nat.le_of_lt hstart), length_overwrite hfits]
  by_cases hround : start + len < cells.length
  · -- the run ends before the block does, so nothing of it is at the beginning
    rw [Nat.mod_eq_of_lt hround] at hpos
    subst hpos
    have hfirst : min (len + data.length - (cells.length - start)) start = 0 := by omega
    have hfirst' : min (len - (cells.length - start)) start = 0 := by omega
    have hbefore : (cells.take (start + len)).length = start + len := by
      rw [List.length_take]
      omega
    rw [hfirst, hfirst', List.take_zero, List.take_zero, List.append_nil, List.append_nil, overwrite,
      List.drop_append_of_le_length (by omega), List.drop_take, Nat.add_sub_cancel_left]
    have hkept : ((cells.drop start).take len).length = len := by
      rw [List.length_take, List.length_drop]
      omega
    rw [List.take_append, hkept, Nat.add_sub_cancel_left, List.take_left,
      List.take_of_length_le (by omega)]
  · -- the run has gone round, and the write comes between its end and its start
    have hmod : (start + len) % cells.length = start + len - cells.length := by
      rw [Nat.mod_eq_sub_mod (by omega), Nat.mod_eq_of_lt (by omega)]
    rw [hmod] at hpos
    have hrest : min (len - (cells.length - start)) start = pos := by omega
    have hrest' : min (len + data.length - (cells.length - start)) start = pos + data.length := by
      omega
    have hprefix : (cells.take pos ++ data).length = pos + data.length := by
      rw [List.length_append, List.length_take]
      omega
    have hupper : (overwrite cells pos data).drop start = cells.drop start := by
      rw [overwrite, ← List.append_assoc, List.drop_append, hprefix,
        List.drop_of_length_le (by omega), List.nil_append, List.drop_drop]
      congr 1
      omega
    have hlower : (overwrite cells pos data).take (pos + data.length) = cells.take pos ++ data := by
      rw [overwrite, ← List.append_assoc, ← hprefix, List.take_left]
    have hall : ∀ k, len ≤ k → (cells.drop start).take k = cells.drop start := by
      intro k hk
      apply List.take_of_length_le
      rw [List.length_drop]
      omega
    rw [hrest, hrest', hupper, hlower, hall _ (Nat.le_add_right _ _), hall _ (Nat.le_refl _),
      List.append_assoc]

/-- **Reading in two pieces**, each inside the block. The second is empty unless the run goes
    round. -/
theorem run_pieces (hstart : start ≤ cells.length) (hlen : len ≤ cells.length) :
    run cells start len
      = (cells.drop start).take (min len (cells.length - start))
        ++ cells.take (len - min len (cells.length - start)) := by
  rw [run_eq hstart]
  congr 1
  · rw [← List.length_drop, ← List.take_take, List.take_length]
  · congr 1
    omega

end Ring

/-! ## What a ring is for -/

namespace Fifo

/-- What is done to a queue. -/
inductive Op (α : Type*)
  | put (items : List α)
  | take (n : Nat)

/-- A queue with a bound, beside everything that was taken from it so far. What does not fit is
    not put, and what is not there is not taken. -/
def step {α : Type*} (bound : Nat) : List α × List α → Op α → Option (List α × List α)
  | (queue, out), .put items =>
    if queue.length + items.length ≤ bound then some (queue ++ items, out) else none
  | (queue, out), .take n =>
    if n ≤ queue.length then some (queue.drop n, out ++ queue.take n) else none

end Fifo
