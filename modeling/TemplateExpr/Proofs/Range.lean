-- What a walk over a range gives. A place in a range stands for the numbers that are still
-- ahead of it, and one step takes the first of them; so all that is said of a whole walk
-- follows from what one step does to that list.
import Mathlib.Data.List.Nodup
import Mathlib.Tactic.Ring
import TemplateExpr.Range

namespace TemplateExpr

namespace Range

namespace Cursor

/-! ## Places -/

/-- The places that a walk goes through. All numbers before the stop have 32 bits; the stop itself
may be the one past them. -/
inductive Sound : Cursor → Prop
  | up {next stop : Int} : -2147483648 ≤ next → next ≤ stop → stop ≤ 2147483648 →
      Sound ⟨next, stop, 1⟩
  | down {next stop : Int} : -2147483649 ≤ stop → stop ≤ next → next ≤ 2147483647 →
      Sound ⟨next, stop, -1⟩

/-- The numbers from this place on. -/
def ahead (c : Cursor) : List Int :=
  (List.range c.remaining).map fun (k : Nat) => c.next + k * c.step

/-- The place after some steps. -/
def after (c : Cursor) : Nat → Cursor
  | 0 => c
  | k + 1 => (c.after k).advance.2

/-- Whether a whole number is one of 64 bits. -/
def IsWord (n : Int) : Prop := -9223372036854775808 ≤ n ∧ n ≤ 9223372036854775807

/-- Everything that is computed at a place has 64 bits. -/
structure Fits (c : Cursor) : Prop where
  next : IsWord c.next
  stop : IsWord c.stop
  forward : IsWord (c.next + c.step)
  distance : IsWord (c.stop - c.next)
  remaining : IsWord ((c.stop - c.next) * c.step)

theorem length_ahead (c : Cursor) : c.ahead.length = c.remaining := by
  simp [ahead]

theorem Sound.fits {c : Cursor} (h : Sound c) : Fits c := by
  cases h <;> constructor <;> simp only [IsWord] <;> omega

/-! ## One step -/

theorem ahead_of_done {c : Cursor} (h : c.remaining = 0) : c.ahead = [] := by
  simp [ahead, h]

theorem ahead_of_remaining {c : Cursor} {n : Nat} (h : c.remaining = n + 1)
    (hrest : ({ c with next := c.next + c.step } : Cursor).remaining = n) :
    c.ahead = c.next :: ({ c with next := c.next + c.step } : Cursor).ahead := by
  unfold ahead
  rw [h, hrest, List.range_succ_eq_map, List.map_cons, List.map_map]
  congr 1
  · simp
  · apply List.map_congr_left
    intro k _
    simp only [Function.comp_apply]
    push_cast
    ring

/-- One step takes the first of the numbers ahead, and none where there is none. -/
theorem Sound.next? {c : Cursor} (h : Sound c) :
    c.next? = none ∧ c.ahead = [] ∨
      ∃ n c', c.next? = some (n, c') ∧ c.ahead = n.toInt :: c'.ahead ∧ Sound c' := by
  have of_number : ∀ n : Int, -2147483648 ≤ n → n ≤ 2147483647 → (Int32.ofInt n).toInt = n :=
    fun n hlow hhigh => Int32.toInt_ofInt_of_le hlow (by omega)
  cases h with
  | @up next stop hlow hle hhigh =>
    by_cases hend : next = stop
    · refine .inl ⟨by simp [Cursor.next?, hend], ahead_of_done ?_⟩
      simp [remaining, hend]
    · refine .inr ⟨Int32.ofInt next, ⟨next + 1, stop, 1⟩, ?_, ?_, ?_⟩
      · unfold Cursor.next?
        simp only [if_pos (show (0 : Int) < 1 by omega)]
        rw [if_pos (by omega), if_pos ⟨hlow, by omega⟩]
      · rw [of_number next hlow (by omega)]
        apply ahead_of_remaining (n := (stop - next - 1).toNat) <;> simp only [remaining] <;> omega
      · exact .up (by omega) (by omega) hhigh
  | @down next stop hlow hle hhigh =>
    by_cases hend : stop = next
    · refine .inl ⟨by simp [Cursor.next?, hend], ahead_of_done ?_⟩
      simp [remaining, hend]
    · refine .inr ⟨Int32.ofInt next, ⟨next + -1, stop, -1⟩, ?_, ?_, ?_⟩
      · unfold Cursor.next?
        simp only [if_neg (show ¬ (0 : Int) < -1 by omega)]
        rw [if_pos (by omega), if_pos ⟨by omega, hhigh⟩]
      · rw [of_number next (by omega) hhigh]
        apply ahead_of_remaining (n := (next - stop - 1).toNat) <;> simp only [remaining] <;> omega
      · exact .down hlow (by omega) (by omega)

theorem Sound.advance {c : Cursor} (h : Sound c) : c.advance.1.map Int32.toInt = c.ahead.head? ∧
    c.advance.2.ahead = c.ahead.tail ∧ Sound c.advance.2 := by
  unfold Cursor.advance
  rcases h.next? with ⟨hnone, hahead⟩ | ⟨n, c', hsome, hahead, hsound⟩
  · simp [hnone, hahead, h]
  · simp [hsome, hahead, hsound]

/-! ## Many steps -/

theorem Sound.after {c : Cursor} (h : Sound c) (k : Nat) :
    Sound (c.after k) ∧ (c.after k).ahead = c.ahead.drop k := by
  induction k with
  | zero => exact ⟨h, rfl⟩
  | succ k ih =>
    obtain ⟨hsound, hahead⟩ := ih
    obtain ⟨_, htail, hrest⟩ := hsound.advance
    refine ⟨hrest, ?_⟩
    rw [Cursor.after, htail, hahead, List.tail_drop]

theorem Sound.take {c : Cursor} (h : Sound c) (n : Nat) :
    (c.take n).map Int32.toInt = c.ahead.take n := by
  induction n generalizing c with
  | zero => simp [Cursor.take]
  | succ n ih =>
    unfold Cursor.take
    rcases h.next? with ⟨hnone, hahead⟩ | ⟨i, c', hsome, hahead, hsound⟩
    · simp [hnone, hahead]
    · simp [hsome, hahead, ih hsound]

theorem after_advance (c : Cursor) (k : Nat) : c.advance.2.after k = c.after (k + 1) := by
  induction k with
  | zero => rfl
  | succ k ih =>
    unfold after
    rw [ih]

/-- A walk that is written down goes through the places after each count of steps. -/
theorem steps_eq (c : Cursor) (n : Nat) : c.steps n =
    (List.range n).map fun k => ((c.after k).advance.1, (c.after (k + 1)).remaining) := by
  induction n generalizing c with
  | zero => rfl
  | succ n ih =>
    rw [steps, ih, List.range_succ_eq_map, List.map_cons, List.map_map]
    simp [after, after_advance]

end Cursor

/-! ## Ranges -/

/-- One up where the range starts below its end, one down everywhere else. -/
def direction (r : Range) : Int := if r.first.toInt < r.last.toInt then 1 else -1

/-- The distance of the bounds, and one more where the last is included. -/
def count (r : Range) : Nat :=
  (r.last.toInt - r.first.toInt).natAbs + if r.inclusive then 1 else 0

/-- The range the other way round. -/
def reversed (r : Range) : Range := { r with first := r.last, last := r.first }

theorem sound_begin (r : Range) : r.begin.Sound := by
  have hfirst := r.first.le_toInt
  have hfirst' := r.first.toInt_lt
  have hlast := r.last.le_toInt
  have hlast' := r.last.toInt_lt
  unfold begin
  by_cases hup : r.first.toInt < r.last.toInt
  · simp only [hup, if_true]
    split <;> exact .up (by omega) (by omega) (by omega)
  · simp only [hup, if_false]
    split <;> exact .down (by omega) (by omega) (by omega)

theorem length_eq_count (r : Range) : r.length = r.count := by
  unfold length count begin Cursor.remaining
  by_cases hup : r.first.toInt < r.last.toInt <;> by_cases hin : r.inclusive = true
  all_goals simp only [hup, hin, if_true, if_false, Bool.false_eq_true]; omega

theorem ahead_begin (r : Range) : r.begin.ahead =
    (List.range r.count).map fun (k : Nat) => r.first.toInt + k * r.direction := by
  have hstart : r.begin.next = r.first.toInt ∧ r.begin.step = r.direction := by
    unfold begin direction
    by_cases hup : r.first.toInt < r.last.toInt <;> simp [hup]
  rw [Cursor.ahead, ← length, length_eq_count, hstart.1, hstart.2]

theorem map_toList (r : Range) : r.toList.map Int32.toInt = r.begin.ahead := by
  rw [toList, r.sound_begin.take, List.take_of_length_le]
  rw [Cursor.length_ahead, length]

theorem map_toInt_injective : Function.Injective (List.map Int32.toInt) :=
  List.map_injective_iff.2 fun _ _ h => Int32.toInt_inj.1 h

theorem length_toList (r : Range) : r.toList.length = r.count := by
  have hlength := congrArg List.length r.map_toList
  rwa [List.length_map, Cursor.length_ahead, ← length, length_eq_count] at hlength

theorem toInt_getElem (r : Range) {k : Nat} (hk : k < r.toList.length) :
    r.toList[k].toInt = r.first.toInt + k * r.direction := by
  have hmap := r.map_toList
  rw [ahead_begin] at hmap
  have hnumber := congrArg (fun cs : List Int => cs[k]?) hmap
  simp only [List.getElem?_map, List.getElem?_eq_getElem hk,
    List.getElem?_range (length_toList r ▸ hk), Option.map_some, Option.some.injEq] at hnumber
  exact hnumber

/-- As many steps as the bounds are apart lead from the first to the last. -/
theorem distance_mul_direction (r : Range) :
    ((r.last.toInt - r.first.toInt).natAbs : Int) * r.direction =
      r.last.toInt - r.first.toInt := by
  unfold direction
  split <;> omega

theorem nodup_toList (r : Range) : r.toList.Nodup := by
  have hdirection : r.direction ≠ 0 := by
    unfold direction
    split <;> omega
  refine List.Nodup.of_map Int32.toInt ?_
  rw [map_toList, ahead_begin]
  refine List.nodup_range.map ?_
  intro j k h
  have hmul : (j : Int) * r.direction = k * r.direction := Int.add_left_cancel h
  exact_mod_cast Int.eq_of_mul_eq_mul_right hdirection hmul

/-- The last number of a range is one step before the number that its count leads to. -/
theorem toInt_getLast (r : Range) {n : Int32} (h : r.toList.getLast? = some n) :
    n.toInt + r.direction = r.first.toInt + r.count * r.direction := by
  rw [List.getLast?_eq_getElem?] at h
  obtain ⟨hlt, rfl⟩ := List.getElem?_eq_some_iff.1 h
  rw [toInt_getElem, length_toList]
  rw [length_toList] at hlt
  obtain ⟨k, hk⟩ : ∃ k, r.count = k + 1 := ⟨r.count - 1, by omega⟩
  rw [hk, Nat.add_sub_cancel]
  push_cast
  ring

theorem getLast?_of_inclusive {r : Range} (hin : r.inclusive = true) :
    r.toList.getLast? = some r.last := by
  have hcount : r.count = (r.last.toInt - r.first.toInt).natAbs + 1 := by simp [count, hin]
  have hne : r.toList ≠ [] := by
    apply List.ne_nil_of_length_pos
    rw [length_toList]
    omega
  have hlast := r.toInt_getLast (List.getLast?_eq_some_getLast hne)
  rw [hcount, Nat.cast_add_one, Int.add_mul, distance_mul_direction] at hlast
  rw [List.getLast?_eq_some_getLast hne, Option.some.injEq]
  apply Int32.toInt_inj.1
  omega

theorem toInt_getLast_of_exclusive {r : Range} (hex : r.inclusive = false) {n : Int32}
    (h : r.toList.getLast? = some n) : n.toInt + r.direction = r.last.toInt := by
  have hcount : r.count = (r.last.toInt - r.first.toInt).natAbs := by simp [count, hex]
  have hlast := r.toInt_getLast h
  rw [hcount, distance_mul_direction] at hlast
  omega

theorem reversed_toList {r : Range} (hin : r.inclusive = true) :
    r.reversed.toList = r.toList.reverse := by
  have hcount : r.count = (r.last.toInt - r.first.toInt).natAbs + 1 := by simp [count, hin]
  have hreversed : r.reversed.count = (r.first.toInt - r.last.toInt).natAbs + 1 := by
    simp [count, reversed, hin]
  apply List.ext_getElem
  · rw [List.length_reverse, length_toList, length_toList]
    omega
  · intro k hk _
    rw [length_toList] at hk
    apply Int32.toInt_inj.1
    rw [toInt_getElem, List.getElem_reverse, toInt_getElem, length_toList]
    change r.last.toInt + k * (if r.last.toInt < r.first.toInt then 1 else -1) =
      r.first.toInt + ↑(r.count - 1 - k) * (if r.first.toInt < r.last.toInt then 1 else -1)
    split <;> split <;> omega

/-- What a range promises of every walk over it. -/
structure Walked (r : Range) : Prop where
  /-- From the first bound on, each number one step from the one before. -/
  numbers : r.toList.map Int32.toInt =
    (List.range r.count).map fun (k : Nat) => r.first.toInt + k * r.direction
  nodup : r.toList.Nodup
  ends_with_last : r.inclusive = true → r.toList.getLast? = some r.last
  ends_before_last : r.inclusive = false →
    ∀ n ∈ r.toList.getLast?, n.toInt + r.direction = r.last.toInt
  length : r.length = r.count
  /-- Each step gives the next number, and from the end on none. -/
  next : ∀ k, (r.begin.after k).advance.1 = r.toList[k]?
  /-- What is left after some steps. -/
  left : ∀ k, (r.begin.after k).remaining = r.count - min k r.count
  /-- A walk that begins again, written down as far as one likes. -/
  again : ∀ n, r.begin.take n = r.toList.take n ∧
    r.begin.steps n = (List.range n).map fun k => (r.toList[k]?, r.count - min (k + 1) r.count)
  fits : ∀ k, (r.begin.after k).Fits
  reversed : r.inclusive = true → r.reversed.toList = r.toList.reverse

/-- Every walk over a range gives the integers from one bound to the other, up to the ends of 32
bits, and none twice. What is left is known after each step, and nothing that is computed on the
way is too large for 64 bits. -/
theorem a_range_gives_what_it_promises (r : Range) : Walked r := by
  have hsound := r.sound_begin
  have hnext : ∀ k, (r.begin.after k).advance.1 = r.toList[k]? := by
    intro k
    obtain ⟨hplace, hahead⟩ := hsound.after k
    apply Option.map_injective fun _ _ h => Int32.toInt_inj.1 h
    rw [hplace.advance.1, hahead, List.head?_drop, ← map_toList, List.getElem?_map]
  have hleft : ∀ k, (r.begin.after k).remaining = r.count - min k r.count := by
    intro k
    rw [← Cursor.length_ahead, (hsound.after k).2, List.length_drop, Cursor.length_ahead, ← length,
      length_eq_count]
    omega
  refine ⟨?_, r.nodup_toList, getLast?_of_inclusive, fun hex n => toInt_getLast_of_exclusive hex,
    r.length_eq_count, hnext, hleft, ?_, fun k => (hsound.after k).1.fits, reversed_toList⟩
  · rw [map_toList, ahead_begin]
  · intro n
    constructor
    · apply map_toInt_injective
      rw [hsound.take, List.map_take, map_toList]
    · simp [Cursor.steps_eq, hnext, hleft]

/-- The greatest integer of 32 bits has none above it, and a range that ends there ends all the
same. -/
example : (⟨2147483646, 2147483647, true⟩ : Range).toList = [2147483646, 2147483647] := by decide

end Range

end TemplateExpr
