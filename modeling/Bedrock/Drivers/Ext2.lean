import Bedrock.Drivers.Storage
import Bedrock.Libc.String

/-!
# `drivers/ext2.c`

Reading a block, an inode and a directory block, the search for the inode of a
path, and mounting. The functions work in pages from `kmalloc`, which they read and
write through pointers; `struct ext2_priv_data` is written once, when the
volume is mounted, and is a value here.

The loops over directory entries and over characters run until the data stops
them. They are given a bound on their rounds and stop as `fuel` beyond it.
-/

namespace Bedrock

open Lib

variable {δ : Type}

/-- Unsigned division, with the processor's divide error. -/
def udiv (a b : UInt32) : Except Halt UInt32 :=
  if b = 0 then .error .divideError else .ok (a / b)

def umod (a b : UInt32) : Except Halt UInt32 :=
  if b = 0 then .error .divideError else .ok (a % b)

/-- Arithmetic that may trap, in kernel code. -/
def Kern.ofExcept {α : Type} : Except Halt α → Kern δ α
  | .ok a => pure a
  | .error e => throw e

theorem udiv_ok {a b : UInt32} (h : 0 < b.toNat) : udiv a b = .ok (a / b) :=
  if_neg fun h0 => absurd h (by rw [h0]; decide)

theorem umod_ok {a b : UInt32} (h : 0 < b.toNat) : umod a b = .ok (a % b) :=
  if_neg fun h0 => absurd h (by rw [h0]; decide)

theorem Kern.ofExcept_run {α : Type} {x : Except Halt α} {a : α} {k : Kernel δ}
    (h : x = .ok a) : (Kern.ofExcept x).run k = .ok a k := by
  rw [h]
  rfl

/-- `*(uint16_t *)p` -/
def read16 (p : UInt32) : Kern δ UInt16 := do return (← get).mem.load16 p

/-- `*(uint32_t *)p` -/
def read32 (p : UInt32) : Kern δ UInt32 := do return (← get).mem.load32 p

@[simp] theorem read16_run (p : UInt32) (k : Kernel δ) :
    (read16 p).run k = .ok (k.mem.load16 p) k := rfl

@[simp] theorem read32_run (p : UInt32) (k : Kernel δ) :
    (read32 p).run k = .ok (k.mem.load32 p) k := rfl

/-- The fields of `struct superblock` the driver computes with. -/
structure Superblock where
  blocks : UInt32
  superblockId : UInt32
  blocksizeHint : UInt32
  blocksInBlockgroup : UInt32
  inodesInBlockgroup : UInt32
deriving DecidableEq

/-- `struct ext2_priv_data` -/
structure Ext2PrivData where
  sb : Superblock
  firstBgd : UInt32
  numberOfBgs : UInt32
  blocksize : UInt32
  sectorsPerBlock : UInt32
  inodesPerBlock : UInt32
deriving DecidableEq

/-- `sizeof(struct superblock)`, `sizeof(struct block_group)` and
`sizeof(struct inode)` -/
def sizeofSuperblock : UInt32 := 1024

def sizeofBlockGroup : UInt32 := 32

def sizeofInode : UInt32 := 128

def fillPrivData (sb : Superblock) : Except Halt Ext2PrivData := do
  let blocksize : UInt32 := 1024 <<< sb.blocksizeHint
  let inodesPerBlock := blocksize / sizeofInode
  -- `blocksize` is an `int`, and this division is the one between two `int`s
  let sectorsPerBlock := (blocksize.toInt32 / 512).toUInt32
  let firstBgd := sb.superblockId + (← udiv sizeofSuperblock blocksize)
  let numberOfBgs ← udiv sb.blocks sb.blocksInBlockgroup
  return { sb, firstBgd, numberOfBgs, blocksize, sectorsPerBlock, inodesPerBlock }

section

variable [Layout] (ide : Ide δ) (dev : DeviceInfo) (priv : Ext2PrivData)

def ext2ReadBlock (block buf : UInt32) : Kern δ Unit := do
  let _ ← readSectors ide dev (block * priv.sectorsPerBlock).toInt32
    priv.sectorsPerBlock.toInt32 buf

/-- The page `block_buf` is not given back. -/
def ext2ReadInode (inode inodeBuf : UInt32) : Kern δ Unit := do
  let bg ← Kern.ofExcept (udiv (inode - 1) priv.sb.inodesInBlockgroup)
  let blockBuf ← kmalloc 1
  ext2ReadBlock ide dev priv priv.firstBgd blockBuf
  kprint "We seek BG "
  kprintInt bg
  kprint "\n"
  -- `for(i = 0; i < bg; i++) bgd++;`
  let bgd := blockBuf + bg * sizeofBlockGroup
  let index ← Kern.ofExcept (umod (inode - 1) priv.sb.inodesInBlockgroup)
  kprint "Index of our inode is "
  kprintInt index
  kprint "\n"
  let block ← Kern.ofExcept (udiv (index * sizeofInode) priv.blocksize)
  let blockOfInodeTable ← read32 (bgd + 8)
  kprint "Absolute: "
  kprintInt (blockOfInodeTable + block)
  kprint "\n"
  ext2ReadBlock ide dev priv (blockOfInodeTable + block) blockBuf
  let index ← Kern.ofExcept (umod index priv.inodesPerBlock)
  memoryCopy (blockBuf + index * sizeofInode) inodeBuf 128

/-- `name`, the NUL-terminated copy of the entry's name, in a new page. -/
def ext2EntryName (dir : UInt32) : Kern δ UInt32 := do
  let name ← kmalloc 1
  memoryCopy (dir + 8) name ((← get).mem (dir + 6)).toUInt32.toInt32
  modify fun k => { k with
    mem := k.mem.write (name + (k.mem (dir + 6)).toUInt32) 1 fun _ => 0 }
  return name

/-- `filename && strcmp(filename, name) == 0` -/
def ext2NameMatches (fuel : Nat) (filename name : UInt32) : Kern δ Bool := do
  if filename = 0 then
    return false
  let k ← get
  return (← strcmp fuel (chars k.mem filename) (chars k.mem name)) == 0

/-- The loop of `ext2_read_directory`. -/
def ext2ReadDirectoryLoop (fuel : Nat) (filename : UInt32) :
    (rounds : Nat) → (dir : UInt32) → Kern δ UInt32
  | 0, _ => throw .fuel
  | rounds + 1, dir => do
      if (← read32 dir) = 0 then
        return 0
      let name ← ext2EntryName dir
      if (← ext2NameMatches fuel filename name) then
        kprint "Found inode "
        kprintMsg (.mem filename)
        kprint ": "
        kprintInt (← read32 dir)
        kprint "\n"
        kfree name 1
        return (← read32 dir)
      -- `!filename && (uint32_t)filename != 1`
      if filename = 0 then
        kprintMsg (.mem name)
        kprint "\n"
      let size ← read16 (dir + 4)
      kfree name 1
      ext2ReadDirectoryLoop fuel filename rounds (dir + size.toUInt32)

def ext2ReadDirectory (fuel : Nat) (filename dir : UInt32) : Kern δ UInt32 :=
  ext2ReadDirectoryLoop fuel filename fuel dir

/-- `for (int i = 0; i < 12; i++)` over `inode->dbp[i]` with the `break` at the
first that is 0, from `i` on with `n` rounds left. `body` is the rest of the
round: whether it leaves the loop, and with what. -/
def forDirectBlocks {α : Type} (inode : UInt32)
    (body : UInt32 → Kern δ (Option α)) : (n i : Nat) → Kern δ (Option α)
  | 0, _ => return none
  | n + 1, i => do
      let b ← read32 (inode + 40 + UInt32.ofNat (4 * i))
      if b = 0 then
        return none
      match ← body b with
      | some a => return some a
      | none => forDirectBlocks inode body n (i + 1)

def ext2ReadRootDirectory (fuel : Nat) (filename rootBuf : UInt32) :
    Kern δ UInt8 := do
  let inode ← kmalloc 1
  ext2ReadInode ide dev priv 2 inode
  if (← read16 inode) &&& 0xF000 ≠ 0x4000 then
    kprint "FATAL: Root directory is not a directory!\n"
    kfree inode 1
    return 0
  let left ← forDirectBlocks inode (fun b => do
      ext2ReadBlock ide dev priv b rootBuf
      if (← ext2ReadDirectory fuel filename rootBuf) = 0 then
        return none
      kfree inode 1
      return some 1) 12 0
  match left with
  | some r => return r
  | none =>
      kfree inode 1
      if filename ≠ 0 ∧ filename ≠ 1 then
        return 0
      return 1

/-- The three calls of `kfree` before every `return` of
`ext2_find_file_inode`. -/
def ext2FindRelease (filename inode rootBuf : UInt32) : Kern δ Unit := do
  kfree filename 1
  kfree inode 1
  kfree rootBuf 1

/-- What a round of the `for` loop of `ext2_find_file_inode` does with the
direct block `b`. Every branch leaves the loop: with the value the function
returns, or with the inode number the `while` loop goes on with. -/
def ext2FindInBlock (fuel : Nat) (ff inode rootBuf filename retnode b : UInt32) :
    Kern δ (Option (Except UInt8 UInt32)) := do
  ext2ReadBlock ide dev priv b rootBuf
  let rc ← ext2ReadDirectory fuel filename rootBuf
  if rc = 0 then
    if (← strcmp fuel (chars (← get).mem filename) (literal [])) = 0 then
      ext2FindRelease filename inode rootBuf
      if (← strcmp fuel (chars (← get).mem ff) (literal [slash])) = 0 then
        return some (.error 1)
      return some (.error retnode.toUInt8)
    kprint "File not found: "
    kprintMsg (.mem filename)
    kprint "\n"
    ext2FindRelease filename inode rootBuf
    return some (.error 0)
  ext2ReadInode ide dev priv rc inode
  return some (.ok rc)

/-- The `while` loop of `ext2_find_file_inode`, `n` rounds of it: the file name
and `retnode` it ends with, or the value the function returns. -/
def ext2FindLoop (fuel : Nat) (ff inode rootBuf : UInt32) :
    (n : Nat) → (filename retnode : UInt32) →
      Kern δ (Except UInt8 (UInt32 × UInt32))
  | 0, filename, retnode => return .ok (filename, retnode)
  | n + 1, filename, retnode => do
      kprint "Looking for: "
      kprintMsg (.mem filename)
      kprint "\n"
      let left ← forDirectBlocks inode
        (ext2FindInBlock ide dev priv fuel ff inode rootBuf filename retnode) 12 0
      match left with
      | some (.error r) => return .error r
      | some (.ok rc) =>
          let s ← strlen fuel (chars (← get).mem filename)
          ext2FindLoop fuel ff inode rootBuf n (filename + (s.toUInt32 + 1)) rc
      | none =>
          let s ← strlen fuel (chars (← get).mem filename)
          ext2FindLoop fuel ff inode rootBuf n (filename + (s.toUInt32 + 1)) retnode

/-- The branch of `ext2_find_file_inode` for a path of `n` names behind its
first `/`. -/
def ext2FindFromRoot (fuel : Nat) (ff inodeBuf inode rootBuf filename : UInt32)
    (n : Nat) : Kern δ UInt8 := do
  ext2ReadInode ide dev priv 2 inode
  match ← ext2FindLoop ide dev priv fuel ff inode rootBuf n filename 0 with
  | .error r => return r
  | .ok (filename, retnode) =>
      memoryCopy inode inodeBuf 128
      ext2FindRelease filename inode rootBuf
      return retnode.toUInt8

def ext2FindFileInode (fuel : Nat) (ff inodeBuf : UInt32) : Kern δ UInt8 := do
  let inode ← kmalloc 1
  let rootBuf ← kmalloc 1
  let filename ← kmalloc 1
  let len ← strlen fuel (chars (← get).mem ff)
  memoryCopy ff filename (len + 1)
  let n ← strsplit fuel filename slash
  let filename := filename + 1
  if 1 < n then
    -- `n--; while(n--)`
    ext2FindFromRoot ide dev priv fuel ff inodeBuf inode rootBuf filename
      (n.toInt.toNat - 1)
  else
    let _ ← ext2ReadRootDirectory ide dev priv fuel filename inode
    memoryCopy inode inodeBuf 128
    ext2FindRelease filename inode rootBuf
    return 0

end

/-! ## Mounting -/

/-- The `struct superblock` at `sb`. -/
def loadSuperblock (m : Mem) (sb : UInt32) : Superblock where
  blocks := m.load32 (sb + 4)
  superblockId := m.load32 (sb + 20)
  blocksizeHint := m.load32 (sb + 24)
  blocksInBlockgroup := m.load32 (sb + 32)
  inodesInBlockgroup := m.load32 (sb + 40)

/-- `fill_priv_data(sb, priv)`: the value and its copy at `priv`. Nothing can
see how far the stores got when a division traps. -/
def storePrivData (sb priv : UInt32) : Kern δ Ext2PrivData := do
  let data ← Kern.ofExcept (fillPrivData (loadSuperblock (← get).mem sb))
  modify fun k => { k with
    mem := ((((k.mem.store32 (priv + 1032) data.blocksize).store32
      (priv + 1040) data.inodesPerBlock).store32 (priv + 1036) data.sectorsPerBlock).store32
      (priv + 1024) data.firstBgd).store32 (priv + 1028) data.numberOfBgs }
  memoryCopy sb priv 1024
  return data

/-- `sysCfg` points at the literal `"sys.cfg"`. -/
def ext2Init [Layout] (ide : Ide δ) (device : DeviceInfo) (fuel : Nat) (sysCfg : UInt32) :
    Kern δ Unit := do
  kprint "\\ initializing ext2\n"
  kprint "\\ loading superblock\n"
  let sb ← kmalloc 1
  let _ ← readSectors ide device 2 2 sb
  let privPage ← kmalloc 1
  let priv ← storePrivData sb privPage
  if (← read16 (sb + 56)) ≠ 0xEF53 then
    kprint "\\ error: invalid ext2 signature\n"
    return
  kprint "\\ valid ext2 signature\n"
  kprint "\\ major version: "
  kprintInt (← read32 (sb + 76))
  kprint "\n"
  let syscfgInode ← kmalloc 1
  let _ ← ext2FindFileInode ide device priv fuel sysCfg syscfgInode
  if (← read16 syscfgInode) &&& 0xF000 ≠ 0x8000 then
    kprint "\\ missing file: "
    kprint "sys.cfg"
    kprint "\n"
    kernelExit 3
  kfree syscfgInode 1
  kfree sb 1
  kfree privPage 1

end Bedrock
