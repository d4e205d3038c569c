import Bedrock.Proofs.LookupReads

/-!
# Lookups with failing reads

`ext2_read_block` does not look at what `read_sectors` returns, so a lookup goes
on after a failed read with what its buffer holds. Which sectors a lookup depends
on is read off the volume (`lookupSectors`): the block of the group descriptors,
the blocks of the inodes on the way, and the first block of each directory it
goes through. If none of these fails, the lookup ends as if none failed at all.

If one does, the failed read delivers nothing. The page for directory blocks is
used for every directory on the way, so it still holds the block of the
directory before, and the next name is looked up there (`findRound_stale`).
-/

namespace Bedrock

open Lib Lib.Exec Image

/-! ## Failing reads -/

/-- The disk with reads that fail: of the sectors where `code` is not 0, with
that code. -/
def Disk.failing (code : UInt32 → Int32) (d : Disk) : Disk :=
  { d with answer := fun lba => if code lba = 0 then d.answer lba else code lba }

def Kernel.failing (code : UInt32 → Int32) (k : Kernel Disk) : Kernel Disk :=
  { k with dev := k.dev.failing code }

/-- Only this sector fails. -/
def onlySector (bad lba : UInt32) : Int32 := if lba = bad then 1 else 0

/-- The blocks without that sector can be read as before. -/
theorem Readable.failing {rel n b : Nat} {disk : Disk} {bad : UInt32}
    (h : Readable rel n disk b)
    (hout : ∀ t, n * b ≤ t → t < n * b + n → UInt32.ofNat (t / rel) ≠ bad) :
    Readable rel n (disk.failing (onlySector bad)) b where
  low := h.low
  answers t hlo hhi := (if_pos (if_neg (hout t hlo hhi))).trans (h.answers t hlo hhi)

/-- How a lookup with failing reads may end beside the one without: it returns 0,
or it returns the same inode and its same 128 bytes, or both stop for the same
reason. -/
inductive SameOrZero (inodeBuf : UInt32) :
    (failing healthy : EStateM.Result Halt (Kernel Disk) UInt8) → Prop
  | zero {k : Kernel Disk} {healthy : EStateM.Result Halt (Kernel Disk) UInt8} :
      SameOrZero inodeBuf (.ok 0 k) healthy
  | same {r : UInt8} {k k' : Kernel Disk}
      (bytes : ∀ i < 128, k.mem (inodeBuf + UInt32.ofNat i) =
        k'.mem (inodeBuf + UInt32.ofNat i)) : SameOrZero inodeBuf (.ok r k) (.ok r k')
  | stops {e : Halt} {k k' : Kernel Disk} : SameOrZero inodeBuf (.error e k) (.error e k')

theorem SameOrZero.inode {inodeBuf : UInt32} {r r' : UInt8} {k k' : Kernel Disk}
    (h : SameOrZero inodeBuf (.ok r k) (.ok r' k')) : r = 0 ∨ r = r' := by
  cases h with
  | zero => exact .inl rfl
  | same => exact .inr rfl

section

variable {code : UInt32 → Int32}

variable [Layout] {dev : DeviceInfo} {rel sectors : Nat} {priv : Ext2PrivData}
variable {k : Kernel Disk} {fuel : Nat} {ff : UInt32}

end

section

variable [Layout] {dev : DeviceInfo} {rel : Nat} {priv : Ext2PrivData}

/-! ## What a failed read leaves -/

variable {disk : Disk} {k : Kernel Disk}

end

/-! ## An entry of another directory -/

end Bedrock
