import Bedrock.Proofs.FoundInodes
import Bedrock.Proofs.LookupReads
import Bedrock.Proofs.PromptDrives

/-!
# Lookups on a drive

The file system over the driver and a drive, from the path down to the ports. A
lookup that ends well is the lookup on the disk, for every path and whatever is
on the medium (`ext2FindFileInode_drive`). So what is known of lookups on a
volume is true of a drive that holds it (`ext2FindFileInode_volume`), and a drive
that has the sectors of the lookup ready makes it end well
(`ext2FindFileInode_prompt`).
-/

namespace Bedrock

open Lib Lib.Exec Image

section

variable [Layout] {junk : UInt8} {C : Cable} {device : DeviceInfo} {priv : Ext2PrivData}

theorem Cable.Backs.sees (hC : C.Backs device) (hd : Divides priv) :
    Sees C.view (Ata.ide junk) Disk.ide device priv where
  toAdmits := C.view_admits
  toDivides := hd
  sector _ _ _ := Cable.simulates_readSector hC

variable {k : Kernel Ata} {fuel : Nat} {ff inodeBuf : UInt32}

/-- On a drive that moved its blocks as drives do, `ext2_find_file_inode` through
the driver does what it does on the disk: it returns the same, or stops for the
same reason, with the same memory, the same pages taken and the same messages.
The drive holds at the end what it held at the beginning. -/
theorem ext2FindFileInode_drive (hC : C.Backs device) (hd : Divides priv)
    (hattached : C.Attached k.dev)
    (hgood : C.Good (final ((ext2FindFileInode (Ata.ide junk) device priv fuel ff
      inodeBuf).run k)).dev) :
    (ext2FindFileInode Disk.ide device priv fuel ff inodeBuf).run (C.view.kernel.map k) =
      C.view.kernel.result
        ((ext2FindFileInode (Ata.ide junk) device priv fuel ff inodeBuf).run k) :=
  ((simulates_ext2FindFileInode (hC.sees hd) fuel ff inodeBuf k hattached).seen hgood).2

/-- So a lookup on a drive with a volume finds what the volume says. -/
theorem ext2FindFileInode_volume {l : List UInt8} (hC : C.Backs device)
    (hattached : C.Attached k.dev)
    (hm : Mounted device 1 C.device.size.toNat priv (C.disk k.dev))
    (hends : RootEnds (C.disk k.dev).content) (hff : HoldsString k ff l)
    (hfuel : 0x1000 ≤ fuel) (hpass : Explores (C.disk k.dev).content l)
    (hfree : pagesFor (C.disk k.dev).content l ≤ freeCount k.kMemoryMap)
    (hgood : C.Good (final ((ext2FindFileInode (Ata.ide junk) device priv fuel ff
      inodeBuf).run k)).dev) :
    ∃ k', (ext2FindFileInode (Ata.ide junk) device priv fuel ff inodeBuf).run k =
        .ok (outcome (C.disk k.dev).content l).value k' ∧
      ((∀ a, Span inodeBuf 128 a → ¬ FreeAt k.kMemoryMap a) →
        Receives (C.disk k.dev).content k.mem k'.mem inodeBuf
          (outcome (C.disk k.dev).content l).source) := by
  have hd := hm.divides
  have hseen :=
    ((simulates_ext2FindFileInode (hC.sees hd) fuel ff inodeBuf k hattached).seen hgood).2
  have hview : HoldsString (C.view.kernel.map k) ff l :=
    ⟨hff.string, hff.apart, hff.nonzero, hff.short⟩
  obtain ⟨k₁, hrun, hreceives⟩ := ext2FindFileInode_outcome inodeBuf (k := C.view.kernel.map k)
    hm hends hview hfuel hpass hfree
  obtain ⟨k', hx, rfl⟩ := View.of_result_ok (hseen.symm.trans hrun)
  exact ⟨k', hx, hreceives⟩

/-- Where the drive answers the requests of a lookup promptly, nothing goes wrong. -/
theorem ext2FindFileInode_prompt {l : List UInt8} {lbas : List UInt32} (junk : UInt8)
    (inodeBuf : UInt32) (hC : C.Backs device)
    (hm : Mounted device 1 C.device.size.toNat priv (C.disk k.dev)) (hff : HoldsString k ff l)
    (hslash : slash ∈ l) (hfuel : 0x1000 ≤ fuel) (hpass : Explores (C.disk k.dev).content l)
    (hprompt : C.Prompt lbas k.dev)
    (hlog : (final ((ext2FindFileInode Disk.ide.recorded device priv fuel ff inodeBuf).run
      (C.view.kernel.map k).recording)).dev.2 = lbas) :
    C.Good (final ((ext2FindFileInode (Ata.ide junk) device priv fuel ff inodeBuf).run k)).dev := by
  have hd := hm.divides
  have hview : HoldsString (C.view.kernel.map k) ff l :=
    ⟨hff.string, hff.apart, hff.nonzero, hff.short⟩
  have hrequests := ext2FindFileInode_requests (k := C.view.kernel.map k) inodeBuf hm hview hslash
    hfuel hpass
  rw [hlog] at hrequests
  have hin : ∀ lba ∈ lbas, lba.toNat < C.device.size.toNat := fun lba hlba =>
    (hm.serves.answers lba).mp (lookupSectors_answered hm hpass lba (hrequests lba hlba))
  exact Cable.prompt_good hC.toUsable hprompt hin
    (simulates_ext2FindFileInode (Cable.sees_served hC hd hprompt hin junk) fuel ff inodeBuf) hlog

end

/-- The kernel of `volumeState`, over a drive that has these sectors ready. -/
def nestedKernel (lbas : List UInt32) : Kernel Ata :=
  promptKernel (volumeState nestedVolume [[97], [98]]) lbas

/-- On a drive with the volume, `/a/b` is found as on the disk. -/
theorem ext2FindFileInode_drive_nested : ∃ (_ : Layout) (priv : Ext2PrivData)
    (lbas : List UInt32) (k' : Kernel Ata),
    let C := promptCable nestedVolume lbas
    (ext2FindFileInode (Ata.ide 0) ⟨0, 0, 0, 512⟩ priv 0x1000 0x1000 0x3000).run
        (nestedKernel lbas) = .ok 13 k' ∧
      (ext2FindFileInode Disk.ide ⟨0, 0, 0, 512⟩ priv 0x1000 0x1000 0x3000).run
        (C.view.kernel.map (nestedKernel lbas)) = .ok 13 (C.view.kernel.map k') := by
  let _ := bootLayout
  let priv : Ext2PrivData := ⟨superblock nestedVolume, 2, 1, 1024, 2, 8⟩
  obtain ⟨lbas, hlbas⟩ : ∃ lbas, (final ((ext2FindFileInode Disk.ide.recorded ⟨0, 0, 0, 512⟩ priv
      0x1000 0x1000 0x3000).run (promptState (volumeState nestedVolume
        [[97], [98]])).recording)).dev.2 = lbas := ⟨_, rfl⟩
  have hC := promptCable_backs nestedVolume lbas
  have hprompt : (promptCable nestedVolume lbas).Prompt lbas (nestedKernel lbas).dev :=
    promptKernel_prompt (volumeState nestedVolume [[97], [98]]) lbas
  have hm : Mounted ⟨0, 0, 0, 512⟩ 1 (promptCable nestedVolume lbas).device.size.toNat priv
      ((promptCable nestedVolume lbas).disk (nestedKernel lbas).dev) :=
    ⟨hC.serves (nestedKernel lbas).dev, nestedVolume_wellFormed,
      show 2 * (superblock nestedVolume).blocks.toNat ≤ 1000 * 1 by decide,
      show fillPrivData (superblock nestedVolume) = _ by decide⟩
  have hff : HoldsString (nestedKernel lbas) 0x1000 (pathString [[97], [98]]) := by
    have h : HoldsString (volumeState nestedVolume [[97], [98]]) 0x1000
        (pathString [[97], [98]]) := volumeState_holdsString (by decide) (by decide)
    exact ⟨h.string, h.apart, h.nonzero, h.short⟩
  have hmap : (promptCable nestedVolume lbas).view.kernel.map (nestedKernel lbas) =
      promptState (volumeState nestedVolume [[97], [98]]) := promptKernel_map _ _
  rw [← hmap] at hlbas
  have hgood := ext2FindFileInode_prompt 0 0x3000 hC hm hff (by decide) (Nat.le_refl 0x1000)
    nestedVolume_explores hprompt hlbas
  obtain ⟨k', hrun, -⟩ := ext2FindFileInode_volume hC hprompt.toAttached hm
    (show RootEnds nestedVolume by decide) hff (Nat.le_refl 0x1000) nestedVolume_explores
    (show pagesFor nestedVolume (pathString [[97], [98]]) ≤
      freeCount (Kernel.zero ()).kMemoryMap by rw [freeCount_zero]; decide) hgood
  have hdrive := ext2FindFileInode_drive hC hm.divides hprompt.toAttached hgood
  have h13 : (outcome nestedVolume (pathString [[97], [98]])).value = 13 := by decide
  have hvalue : (outcome ((promptCable nestedVolume lbas).disk (nestedKernel lbas).dev).content
      (pathString [[97], [98]])).value = 13 := h13
  rw [hvalue] at hrun
  rw [hrun] at hdrive
  exact ⟨bootLayout, priv, lbas, k', hrun, hdrive⟩

end Bedrock
