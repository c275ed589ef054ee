import TreeGen.Node.Measure

/-!
# Counting in 64 bits

The numbers that a program counts with have 64 bits.  One more than the largest of them is no such
number, and a computation that would need it is stopped here: it gives nothing at all.  Hence a
computation that gives something has never counted beyond the largest number, whether the machine
would have wrapped around there or not.
-/

namespace TreeGen.Word

theorem toNat_le_largestLimit (number : UInt64) : number.toNat ≤ largestLimit :=
  Nat.le_of_lt_succ number.toNat_lt

theorem toNat_add_one {number : UInt64} (h : number.toNat < largestLimit) :
    (number + 1).toNat = number.toNat + 1 := by
  rw [largestLimit] at h
  rw [UInt64.toNat_add, UInt64.toNat_one, Nat.mod_eq_of_lt (by omega)]

/-- The number that comes after `number`. -/
abbrev Next (number : UInt64) : Type :=
  { next : UInt64 // next.toNat = number.toNat + 1 }

/-- One more, unless that takes more than 64 bits. -/
def next? (number : UInt64) : Option (Next number) :=
  if h : number.toNat < largestLimit then some ⟨number + 1, toNat_add_one h⟩ else none

theorem exists_next? (number : UInt64) (h : number.toNat < largestLimit) :
    ∃ next, next? number = some next :=
  ⟨_, dif_pos h⟩

/-- A loop that counts upwards ends, since there are ever fewer numbers left. -/
theorem left_lt_left {number later : UInt64} (h : number.toNat < later.toNat) :
    largestLimit - later.toNat < largestLimit - number.toNat := by
  have := toNat_le_largestLimit later
  omega

def previous (number : UInt64) : UInt64 :=
  if number = 0 then 0 else number - 1

/-- A sum, or the largest number where the sum is larger. -/
def saturatingAdd (a b : UInt64) : UInt64 :=
  if a.toNat + b.toNat ≤ largestLimit then a + b else UInt64.ofNat largestLimit

def saturatingMul (a b : UInt64) : UInt64 :=
  if a.toNat * b.toNat ≤ largestLimit then a * b else UInt64.ofNat largestLimit

theorem toNat_previous (number : UInt64) : (previous number).toNat = number.toNat - 1 := by
  rw [previous]
  split
  · rename_i hzero
    rw [hzero]
    rfl
  · rename_i hne
    have hpos : number.toNat ≠ 0 := by
      intro hzero
      exact hne (UInt64.toNat_inj.mp hzero)
    rw [UInt64.toNat_sub_of_le, UInt64.toNat_one]
    rw [UInt64.le_iff_toNat_le, UInt64.toNat_one]
    omega

theorem toNat_saturatingAdd (a b : UInt64) :
    (saturatingAdd a b).toNat = min (a.toNat + b.toNat) largestLimit := by
  rw [saturatingAdd]
  split
  · rename_i hle
    rw [Nat.min_eq_left hle, UInt64.toNat_add]
    rw [largestLimit] at hle
    exact Nat.mod_eq_of_lt (by omega)
  · rename_i hlt
    rw [Nat.min_eq_right (Nat.le_of_not_le hlt)]
    rfl

theorem toNat_saturatingMul (a b : UInt64) :
    (saturatingMul a b).toNat = min (a.toNat * b.toNat) largestLimit := by
  rw [saturatingMul]
  split
  · rename_i hle
    rw [Nat.min_eq_left hle, UInt64.toNat_mul]
    rw [largestLimit] at hle
    exact Nat.mod_eq_of_lt (by omega)
  · rename_i hlt
    rw [Nat.min_eq_right (Nat.le_of_not_le hlt)]
    rfl

end TreeGen.Word
