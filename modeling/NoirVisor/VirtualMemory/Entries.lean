import NoirVisor.Npt.Entry

/-!
# What the walkers of paging structures share

The walkers of nested, guest and host tables are written alike: an error code of the bits that are
refused, and an offset mask computed in 32 bits (`include/nvbdk.h`, `xpf_core/noirhvm.c`).
-/

namespace NoirVisor

/-- `noir_page_fault_error_code`, by the bits that the walkers set. -/
structure NoirPageFaultErrorCode where
  present : Bool
  write : Bool
  user : Bool
  execute : Bool
deriving DecidableEq

def NoirPageFaultErrorCode.value (err : NoirPageFaultErrorCode) : Bool :=
  err.present || err.write || err.user || err.execute

/-- What an access asks for, by the arguments `r`, `w`, `x` and `u` or the bits `noir_cvm_map_va_*`. -/
structure VaAccess where
  read : Bool
  write : Bool
  execute : Bool
  user : Bool
deriving DecidableEq

namespace VaAccess

/-- The bits of an entry against those of an access, as the source compares them. -/
def check (access : VaAccess) (entry : NptEntry) : NoirPageFaultErrorCode where
  present := decide (entry.present < access.read)
  write := decide (entry.write < access.write)
  user := decide (entry.user < access.user)
  execute := decide (entry.noExecute > access.execute)

/-- What the processor asks of an entry. -/
def grantedBy (access : VaAccess) (entry : NptEntry) : Bool :=
  entry.present && (!access.write || entry.write) && (!access.execute || !entry.noExecute) &&
    (!access.user || entry.user)

end VaAccess

/-- `(1<<(shift_diff+page_4kb_shift))-1`, where the shift is one of 32 bits. -/
def offsetMask (level : Nat) : Nat := 2 ^ ((12 + 9 * level) % 32) - 1

theorem and_offsetMask {level : Nat} (address : Nat) (hlevel : level < 3) :
    address &&& offsetMask level = address % 2 ^ (12 + 9 * level) := by
  have hshift : (12 + 9 * level) % 32 = 12 + 9 * level := Nat.mod_eq_of_lt (by omega)
  rw [offsetMask, hshift, Nat.and_two_pow_sub_one_eq_mod]

theorem decide_lt_eq (a b : Bool) : decide (a < b) = !decide (b ≤ a) := by
  cases a <;> cases b <;> rfl

theorem mod_add_of_page {va k l : Nat} (h : page4kbOffset va + k < 0x1000) :
    (va + k) % 2 ^ (12 + 9 * l) = va % 2 ^ (12 + 9 * l) + k := by
  unfold page4kbOffset at h
  rw [Nat.pow_add, Nat.mod_mul, Nat.mod_mul,
    show (va + k) / 2 ^ 12 = va / 2 ^ 12 by omega, show (va + k) % 2 ^ 12 = va % 2 ^ 12 + k by omega]
  omega

theorem leafTarget_add {va k : Nat} (trail : Radix.Walk NptEntry)
    (h : page4kbOffset va + k < 0x1000) :
    leafTarget trail (va + k) = leafTarget trail va + k := by
  rw [leafTarget, leafTarget, mod_add_of_page h, Nat.add_assoc]

end NoirVisor
