import Mathlib.Data.Nat.Basic

/-! Nested measurements of one holding. Each measurement remembers the holding it
began with and records the rise when it ends; what arrives under several of them is
recorded several times. -/
namespace Measurement

/-- With `befores` open, innermost first, the records are covered by what arrived, and
every measurement but the outermost has seen no rise. -/
def Covered (holding arrived recorded : Nat) : List Nat → Prop
  | [] => recorded ≤ arrived
  | [before] => recorded + (holding - before) ≤ arrived
  | before :: outer :: befores =>
    holding ≤ before ∧ Covered holding arrived recorded (outer :: befores)

theorem Covered.recorded_le {holding arrived recorded : Nat} {befores : List Nat}
    (now : Covered holding arrived recorded befores) : recorded ≤ arrived := by
  induction befores with
  | nil => exact now
  | cons before befores ih =>
    cases befores with
    | nil => exact Nat.le_of_add_right_le now
    | cons outer befores => exact ih now.2

theorem Covered.fall {holding holding' arrived recorded : Nat} {befores : List Nat}
    (now : Covered holding arrived recorded befores) (less : holding' ≤ holding) :
    Covered holding' arrived recorded befores := by
  induction befores with
  | nil => exact now
  | cons before befores ih =>
    cases befores with
    | nil =>
      change recorded + (holding' - before) ≤ arrived
      have covered : recorded + (holding - before) ≤ arrived := now
      omega
    | cons outer befores => exact ⟨Nat.le_trans less now.1,ih now.2⟩

/-- An arrival under at most one measurement. -/
theorem Covered.arrive {holding arrived recorded : Nat} {befores : List Nat} (amount : Nat)
    (now : Covered holding arrived recorded befores) (alone : 0 < amount → befores.length ≤ 1) :
    Covered (holding + amount) (arrived + if befores = [] then 0 else amount) recorded befores := by
  rcases befores with _ | ⟨before,_ | ⟨outer,befores⟩⟩
  · exact now
  · have covered : recorded + (holding - before) ≤ arrived := now
    change recorded + (holding + amount - before) ≤ arrived + amount
    omega
  · have nothing : amount = 0 := by
      by_contra some
      have short := alone (Nat.pos_of_ne_zero some)
      simp at short
    subst nothing
    exact now

theorem Covered.start {holding arrived recorded : Nat} {befores : List Nat}
    (now : Covered holding arrived recorded befores) :
    Covered holding arrived recorded (holding :: befores) := by
  cases befores with
  | nil =>
    change recorded + (holding - holding) ≤ arrived
    rw [Nat.sub_self]
    exact now
  | cons outer befores => exact ⟨Nat.le_refl _,now⟩

/-- The innermost measurement records the rise it sees. -/
theorem Covered.stop {holding arrived recorded before : Nat} {befores : List Nat}
    (now : Covered holding arrived recorded (before :: befores)) :
    Covered holding arrived (recorded + (holding - before)) befores := by
  cases befores with
  | nil => exact now
  | cons outer befores =>
    rw [Nat.sub_eq_zero_of_le now.1]
    exact now.2

end Measurement
