import CodeTint.Position.Mapping

/-!
Maps of one replaced range, far enough from the limits of the counting that no sum is cut off. What
such a map does to a position is arithmetic; the way back is the map with the two lengths swapped.
A run of positions that the range does not meet is carried as a whole, there and back.
-/

set_option autoImplicit false
set_option relaxedAutoImplicit false

namespace CodeTint

namespace Position

theorem limit_eq : limit = 18446744073709551615 := rfl

theorem shiftLimit_eq : shiftLimit = 9223372036854775807 := rfl

theorem shift_zero {pos : Nat} (h : pos ≤ limit) : shift pos 0 = pos := by
  simp only [shift]
  split <;> omega

theorem shift_of_nonneg {pos : Nat} {d : Int} (h : 0 ≤ (pos : Int) + d) :
    shift pos d = min ((pos : Int) + d).toNat limit := by
  simp only [shift]
  split <;> omega

theorem add_of_le {a b : Nat} (h : a + b ≤ limit) : add a b = a + b := by
  simp only [add]
  omega

end Position

namespace PositionMap

def landing (start oldSize newSize pos : Nat) (side : Side) : Nat :=
  match (Splice.mk start oldSize newSize).sideOf pos side with
  | .before => start
  | .after => start + newSize

section Single

variable {start oldSize newSize : Nat}

theorem place_single (old : start + oldSize ≤ Position.shiftLimit)
    (new : start + newSize ≤ Position.shiftLimit) (pos : Nat) (side : Side) :
    (single start oldSize newSize).place pos side =
      if pos < start then ⟨pos, false⟩
      else if pos ≤ start + oldSize then
        ⟨landing start oldSize newSize pos side, decide (start < pos ∧ pos < start + oldSize)⟩
      else ⟨min (pos - oldSize + newSize) Position.limit, false⟩ := by
  have limit := Position.limit_eq
  have shiftLimit := Position.shiftLimit_eq
  by_cases empty : oldSize = 0 ∧ newSize = 0
  · obtain ⟨rfl, rfl⟩ := empty
    have stays : (single start 0 0).place pos side = ⟨min pos Position.limit, false⟩ := by
      simp only [single, identity, place, placeFrom, and_self, if_true]
      rw [Position.shift_of_nonneg (by omega)]
      simp
    rw [stays]
    split
    · congr 1
      omega
    · split
      · have here : pos = start := by omega
        cases side <;> simp [landing, Splice.sideOf, here] <;> omega
      · congr 1
  · have last : (Splice.mk start oldSize newSize).oldEnd = start + oldSize :=
      Position.add_of_le (show start + oldSize ≤ Position.limit by omega)
    simp only [single, if_neg empty, place, placeFrom, last]
    split
    · rw [Position.shift_zero (by omega)]
    · split
      · rw [Position.shift_zero (by omega), Position.add_of_le (by omega)]
        have gone : (Splice.mk start oldSize newSize).swallows pos =
            decide (start < pos ∧ pos < start + oldSize) := by
          simp only [Splice.swallows, last]
          grind
        cases chosen : (Splice.mk start oldSize newSize).sideOf pos side <;>
          simp only [landing, chosen, gone]
      · have delta : Position.clampShift (0 + (Splice.mk start oldSize newSize).delta) =
            (newSize : Int) - oldSize := by
          simp only [Position.clampShift, Splice.delta]
          omega
        rw [delta, Position.shift_of_nonneg (by omega)]
        congr 2
        omega

theorem eq_of_mem_splices_single {s : Splice} (h : s ∈ (single start oldSize newSize).splices) :
    s = ⟨start, oldSize, newSize⟩ := by
  rw [single] at h
  split at h
  · exact absurd h List.not_mem_nil
  · exact List.mem_singleton.mp h

theorem invert_single (first : start ≤ Position.limit) :
    (single start oldSize newSize).invert = single start newSize oldSize := by
  by_cases empty : oldSize = 0 ∧ newSize = 0
  · obtain ⟨rfl, rfl⟩ := empty
    rfl
  · have swapped : ¬(newSize = 0 ∧ oldSize = 0) := fun h => empty h.symm
    simp only [invert, single, if_neg empty, if_neg swapped, invertFrom,
      Position.shift_zero first]

end Single

end PositionMap

end CodeTint
