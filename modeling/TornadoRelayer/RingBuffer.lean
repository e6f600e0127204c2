import Mathlib.Data.Nat.ModEq
import Mathlib.Logic.Function.Basic

/-! Slots that are written round and round: they hold the last items written, the others
what was there before anything was. -/
namespace RingBuffer

variable {α : Type} {size : Nat} {empty : α} {items : List α} {slots : Nat → α}

structure Holds (size : Nat) (empty : α) (items : List α) (slots : Nat → α) : Prop where
  kept : ∀ k (inside : k < items.length), items.length ≤ k + size → slots (k % size) = items[k]
  fresh : ∀ j < size, items.length ≤ j → slots j = empty

theorem holds_singleton (item : α) :
    Holds size empty [item] (Function.update (fun _ => empty) 0 item) where
  kept k inside _ := by
    obtain rfl : k = 0 := by simpa using inside
    simp
  fresh j _ unused := by
    apply Function.update_of_ne
    rintro rfl
    simp at unused

theorem Holds.push (holds : Holds size empty items slots) (item : α) :
    Holds size empty (items ++ [item]) (Function.update slots (items.length % size) item) where
  kept k inside recent := by
    rw [List.length_append,List.length_singleton] at inside recent
    by_cases last : k = items.length
    · subst last
      simp
    · have earlier : k < items.length := by omega
      have apart : k % size ≠ items.length % size := by
        intro same
        have apart := Nat.sub_mod_eq_zero_of_mod_eq same.symm
        rw [Nat.mod_eq_of_lt (by omega)] at apart
        omega
      rw [Function.update_of_ne apart,List.getElem_append_left earlier]
      exact holds.kept k earlier (by omega)
  fresh j below unused := by
    rw [List.length_append,List.length_singleton] at unused
    have apart : j ≠ items.length % size := by
      rw [Nat.mod_eq_of_lt (by omega)]
      omega
    rw [Function.update_of_ne apart]
    exact holds.fresh j below (by omega)

/-- What can be found is what was written last. -/
theorem Holds.mem_iff (holds : Holds size empty items slots) (positive : 0 < size) {x : α}
    (some : x ≠ empty) : (∃ j < size, slots j = x) ↔ x ∈ items.drop (items.length - size) := by
  rw [List.mem_drop_iff_getElem]
  constructor
  · rintro ⟨j,below,found⟩
    have used : j < items.length := by
      by_contra unused
      exact some (found.symm.trans (holds.fresh j below (by omega)))
    -- The last position whose slot is `j`.
    have last : ∃ k, k < items.length ∧ items.length ≤ k + size ∧ k % size = j := by
      have count := Nat.div_add_mod (items.length - 1 - j) size
      have rest := Nat.mod_lt (items.length - 1 - j) positive
      refine ⟨j + size * ((items.length - 1 - j) / size),by omega,by omega,?_⟩
      rw [Nat.add_mul_mod_self_left,Nat.mod_eq_of_lt below]
    obtain ⟨k,inside,recent,slot⟩ := last
    refine ⟨k - (items.length - size),by omega,?_⟩
    have there := holds.kept k inside recent
    rw [slot,found] at there
    rw [there]
    congr 1
    omega
  · rintro ⟨i,inside,rfl⟩
    refine ⟨(i + (items.length - size)) % size,Nat.mod_lt _ positive,?_⟩
    have kept := holds.kept (i + (items.length - size)) (by omega) (by omega)
    rw [kept]
    congr 1
    omega

end RingBuffer
