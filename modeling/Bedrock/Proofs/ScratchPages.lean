import Bedrock.Drivers.Disk

/-!
# The scratch pages of the storage layer

`read_sector` and `write_sector` take a page and give it back on one of their exits
only, the one on which the IDE driver reported no error. The driver is taken with a
script of the codes its calls will return (`Scripted`); what the calls do besides is
left open. A call then reads a known number of codes off the script (`Reads`), and
restores `k_memory_map` exactly if all of them are 0.
-/

namespace Bedrock

open Lib

variable {δ : Type}

/-- Every call returns, with the code that is next in the script. -/
structure Scripted (ide : Ide δ) (script : δ → Nat → Int32) : Prop where
  read : ∀ drive numsects lba es edi (s : Machine δ), ∃ s' : Machine δ,
    (ide.readSectors drive numsects lba es edi).run s = .ok (script s.dev 0) s' ∧
      ∀ i, script s'.dev i = script s.dev (i + 1)
  write : ∀ drive numsects lba es edi (s : Machine δ), ∃ s' : Machine δ,
    (ide.writeSectors drive numsects lba es edi).run s = .ok (script s.dev 0) s' ∧
      ∀ i, script s'.dev i = script s.dev (i + 1)

/-- The next `n` calls succeed. -/
def Succeeds (script : Nat → Int32) (n : Nat) : Prop := ∀ i < n, script i = 0

/-- The function returns and has left the map as it was. -/
def Restores (k : Kernel δ) (x : Kern δ Int32) : Prop :=
  ∃ r k', x.run k = .ok r k' ∧ k'.kMemoryMap = k.kMemoryMap

/-- With a free page the function returns. Either it has come past `n` codes, all of them
0, or it stopped at one that is not and the map has changed. -/
def Reads (script : δ → Nat → Int32) (n : Nat) (x : Kern δ Int32) : Prop :=
  ∀ k : Kernel δ, 0 < freeCount k.kMemoryMap → ∃ r k', x.run k = .ok r k' ∧
    (Succeeds (script k.dev) n ∧ r = 0 ∧ k'.kMemoryMap = k.kMemoryMap ∧
        (∀ i, script k'.dev i = script k.dev (n + i)) ∨
      ¬ Succeeds (script k.dev) n ∧ r ≠ 0 ∧ k'.kMemoryMap ≠ k.kMemoryMap)

theorem Reads.restores_iff {script : δ → Nat → Int32} {n : Nat} {x : Kern δ Int32}
    (hx : Reads script n x) {k : Kernel δ} (hfree : 0 < freeCount k.kMemoryMap) :
    Restores k x ↔ Succeeds (script k.dev) n := by
  obtain ⟨r, k', hrun, hend⟩ := hx k hfree
  constructor
  · rintro ⟨r', k'', hrun', hmap⟩
    rw [hrun] at hrun'
    cases hrun'
    rcases hend with ⟨hall, -⟩ | ⟨-, -, hne⟩
    · exact hall
    · exact absurd hmap hne
  · intro hall
    rcases hend with ⟨-, -, hmap, -⟩ | ⟨hnot, -⟩
    · exact ⟨r, k', hrun, hmap⟩
    · exact absurd hall hnot

/-! ## One sector -/

theorem mapRange_taken_ne {map : Vector UInt8 kMemoryMapEntries} (hfree : 0 < freeCount map) :
    mapRange map (firstFree map) 1 1 ≠ map := by
  intro heq
  have hlt := firstFree_lt hfree
  have hentry := congrArg (fun m : Vector UInt8 kMemoryMapEntries => m[firstFree map]) heq
  simp only [getElem_mapRange, firstFree_free hlt] at hentry
  rw [if_pos ⟨Nat.le_refl _, Nat.lt_succ_self _⟩] at hentry
  exact absurd hentry (by decide)

theorem succeeds_zero (script : Nat → Int32) : Succeeds script 0 :=
  fun i hi => absurd hi (Nat.not_lt_zero i)

theorem Succeeds.succ {script : Nat → Int32} {n : Nat} (h : Succeeds script n)
    (hn : script n = 0) : Succeeds script (n + 1) := fun i hi => by
  rcases Nat.lt_succ_iff_lt_or_eq.mp hi with hlt | rfl
  · exact h i hlt
  · exact hn

theorem succeeds_add {script : Nat → Int32} {n m : Nat} :
    Succeeds script (n + m) ↔ Succeeds script n ∧ Succeeds (fun i => script (n + i)) m := by
  constructor
  · exact fun h => ⟨fun i hi => h i (by omega), fun i hi => h (n + i) (by omega)⟩
  · rintro ⟨hfirst, hrest⟩ i hi
    rcases Nat.lt_or_ge i n with hlt | hge
    · exact hfirst i hlt
    · obtain ⟨j, rfl⟩ := Nat.exists_eq_add_of_le hge
      exact hrest j (by omega)

section

variable [Layout] {ide : Ide δ} {script : δ → Nat → Int32} {device : DeviceInfo} {rel : Nat}

/-- The state after a scratch page was taken and the driver called. -/
def Kernel.taken (k : Kernel δ) (s : Machine δ) : Kernel δ :=
  { k with
    toMachine := s
    kMemoryMap := mapRange k.kMemoryMap (firstFree k.kMemoryMap) 1 1 }

/-- The common beginning of `read_sector` and `write_sector`. -/
theorem scripted_load {β : Type} (hide : Scripted ide script) (hg : Geometry device rel)
    (sector : Int32) {k : Kernel δ} (hfree : 0 < freeCount k.kMemoryMap)
    (f : UInt32 → Place → Int32 → Kern δ β) :
    ∃ s : Machine δ, (∀ i, script s.dev i = script k.dev (i + 1)) ∧
      (do
        let readWriteBuffer ← kmalloc 1
        let place ← locate device sector
        let err ← Kern.ofMachine
          (ide.readSectors device.ataId.toUInt32.toUInt8 1 place.realSector 0 readWriteBuffer)
        f readWriteBuffer place err : Kern δ β).run k =
      (f (scratch k.kMemoryMap) (placeOf rel sector) (script k.dev 0)).run (k.taken s) := by
  obtain ⟨s, hread, hnext⟩ := hide.read device.ataId.toUInt32.toUInt8 1
    (placeOf rel sector).realSector 0 (scratch k.kMemoryMap)
    ⟨k.mem.write (scratch k.kMemoryMap) 0x1000 fun _ => 0, k.console, k.dev⟩
  refine ⟨s, hnext, ?_⟩
  rw [Exec.bind_ok (kmalloc_scratch hfree), Exec.bind_ok (locate_run hg)]
  exact Exec.bind_ok (Kern.ofMachine_ok hread)

/-- The page goes back. -/
theorem kfree_taken {k : Kernel δ} (hfree : 0 < freeCount k.kMemoryMap) (s : Machine δ) :
    (kfree (scratch k.kMemoryMap) 1).run (k.taken s) = .ok () { k with toMachine := s } :=
  kfree_scratch k.kMemoryMap hfree rfl

theorem reads_readSector (hide : Scripted ide script) (hg : Geometry device rel)
    (sector : Int32) (buffer : UInt32) :
    Reads script 1 (readSector ide device sector buffer) := by
  intro k hfree
  obtain ⟨s, hnext, hload⟩ := scripted_load hide hg sector hfree
    fun readWriteBuffer place err => do
      if err ≠ 0 then
        return 1
      memoryCopy (readWriteBuffer + place.offset) buffer 512
      kfree readWriteBuffer 1
      return (0 : Int32)
  rw [readSector, hload]
  by_cases h0 : script k.dev 0 = 0
  · rw [if_neg (not_not.mpr h0)]
    refine ⟨0, _, Exec.bind_ok (kfree_taken hfree _), .inl ⟨?_, rfl, rfl, fun i => ?_⟩⟩
    · exact (succeeds_zero _).succ h0
    · rw [Nat.add_comm]
      exact hnext i
  · rw [if_pos h0]
    exact ⟨1, _, rfl, .inr ⟨fun h => h0 (h 0 Nat.zero_lt_one), by decide,
      mapRange_taken_ne hfree⟩⟩

theorem reads_writeSector (hide : Scripted ide script) (hg : Geometry device rel)
    (sector : Int32) (buffer : UInt32) :
    Reads script 2 (writeSector ide device sector buffer) := by
  intro k hfree
  obtain ⟨s, hnext, hload⟩ := scripted_load hide hg sector hfree
    fun readWriteBuffer place err => do
      if err ≠ 0 then
        kprint "0. err\n"
        return 1
      memoryCopy buffer (readWriteBuffer + place.offset) 512
      let err ← Kern.ofMachine
        (ide.writeSectors device.ataId.toUInt32.toUInt8 1 place.realSector 0 readWriteBuffer)
      if err ≠ 0 then
        return 1
      kfree readWriteBuffer 1
      return (0 : Int32)
  rw [writeSector, hload]
  by_cases h0 : script k.dev 0 = 0
  · obtain ⟨s₁, hs₁⟩ : ∃ s₁ : Machine δ,
        (memoryCopy buffer (scratch k.kMemoryMap + (placeOf rel sector).offset) 512 :
          Kern δ Unit).run (k.taken s) = .ok () (k.taken s₁) ∧ s₁.dev = s.dev := ⟨_, rfl, rfl⟩
    obtain ⟨s₂, hwrite, hnext'⟩ := hide.write device.ataId.toUInt32.toUInt8 1
      (placeOf rel sector).realSector 0 (scratch k.kMemoryMap) s₁
    have h1 : script s₁.dev 0 = script k.dev 1 := by rw [hs₁.2, hnext 0]
    rw [if_neg (not_not.mpr h0), Exec.bind_ok hs₁.1,
      Exec.bind_ok (Kern.ofMachine_ok (k := k.taken s₁) hwrite), h1]
    by_cases hzero : script k.dev 1 = 0
    · rw [if_neg (not_not.mpr hzero)]
      refine ⟨0, _, Exec.bind_ok (kfree_taken hfree s₂), .inl ⟨?_, rfl, rfl, fun i => ?_⟩⟩
      · exact ((succeeds_zero _).succ h0).succ hzero
      · rw [Nat.add_comm]
        show script s₂.dev i = _
        rw [hnext', hs₁.2, hnext]
    · rw [if_pos hzero]
      exact ⟨1, _, rfl, .inr ⟨fun h => hzero (h 1 Nat.one_lt_two), by decide,
        mapRange_taken_ne hfree⟩⟩
  · rw [if_pos h0]
    exact ⟨1, _, rfl, .inr ⟨fun h => h0 (h 0 Nat.zero_lt_two), by decide,
      mapRange_taken_ne hfree⟩⟩

/-! ## Many sectors -/

omit [Layout] in
/-- A loop reads the codes of its rounds. -/
theorem reads_sectorsLoop {access : Int32 → UInt32 → Kern δ Int32} {n : Nat}
    (haccess : ∀ sector buffer, Reads script n (access sector buffer)) (sector : Int32)
    (buffer : UInt32) (rounds c : Nat) :
    Reads script (rounds * n) (sectorsLoop access sector buffer rounds c) := by
  induction rounds generalizing c with
  | zero =>
      intro k _
      rw [Nat.zero_mul]
      exact ⟨0, k, rfl, .inl ⟨succeeds_zero _, rfl, rfl, fun i => by rw [Nat.zero_add]⟩⟩
  | succ rounds ih =>
      intro k hfree
      obtain ⟨r, k₁, hrun, hend⟩ := haccess (sector + Int32.ofNat c)
        (buffer + (Int32.ofNat c * 512).toUInt32) k hfree
      rw [sectorsLoop, Exec.bind_ok hrun]
      rcases hend with ⟨hfirst, rfl, hmap, hnext⟩ | ⟨hnot, hr, hne⟩
      · obtain ⟨r, k₂, hrun', hend'⟩ := ih (c + 1) k₁ (hmap ▸ hfree)
        have hrest : Succeeds (script k.dev) ((rounds + 1) * n) ↔
            Succeeds (script k₁.dev) (rounds * n) := by
          rw [Nat.succ_mul, Nat.add_comm, succeeds_add, funext hnext]
          exact and_iff_right hfirst
        rw [if_neg (by decide), hrun', hrest]
        refine ⟨r, k₂, rfl, ?_⟩
        rw [← hmap]
        rcases hend' with ⟨hall, hr, hmap', hnext'⟩ | hbad
        · refine .inl ⟨hall, hr, hmap', fun i => ?_⟩
          rw [hnext', hnext, Nat.succ_mul, Nat.add_comm (rounds * n) n, Nat.add_assoc]
        · exact .inr hbad
      · rw [if_pos hr]
        refine ⟨1, k₁, rfl, .inr ⟨fun h => hnot fun i hi => h i ?_, by decide, hne⟩⟩
        rw [Nat.succ_mul]
        omega

end

/-! ## Main result -/

/-- The four functions give their pages back exactly if no call of the driver fails. -/
theorem storage_restores_iff [Layout] {ide : Ide δ} {script : δ → Nat → Int32}
    (hide : Scripted ide script) {device : DeviceInfo} {rel : Nat} (hg : Geometry device rel)
    {k : Kernel δ} (hfree : 0 < freeCount k.kMemoryMap) (sector count : Int32)
    (buffer : UInt32) :
    (Restores k (readSector ide device sector buffer) ↔ Succeeds (script k.dev) 1) ∧
    (Restores k (writeSector ide device sector buffer) ↔ Succeeds (script k.dev) 2) ∧
    (Restores k (readSectors ide device sector count buffer) ↔
      Succeeds (script k.dev) (count.toInt.toNat * 1)) ∧
    (Restores k (writeSectors ide device sector count buffer) ↔
      Succeeds (script k.dev) (count.toInt.toNat * 2)) :=
  ⟨(reads_readSector hide hg sector buffer).restores_iff hfree,
    (reads_writeSector hide hg sector buffer).restores_iff hfree,
    (reads_sectorsLoop (reads_readSector hide hg) sector buffer _ 0).restores_iff hfree,
    (reads_sectorsLoop (reads_writeSector hide hg) sector buffer _ 0).restores_iff hfree⟩

/-- A driver that has nothing but its script. -/
def scriptIde : Ide (Nat → Int32) where
  readSectors _ _ _ _ _ := fun s => .ok (s.dev 0) { s with dev := fun i => s.dev (i + 1) }
  writeSectors _ _ _ _ _ := fun s => .ok (s.dev 0) { s with dev := fun i => s.dev (i + 1) }

theorem scripted_scriptIde : Scripted scriptIde id where
  read _ _ _ _ _ _ := ⟨_, rfl, fun _ => rfl⟩
  write _ _ _ _ _ _ := ⟨_, rfl, fun _ => rfl⟩

theorem geometry_512 : Geometry ⟨0, 0, 0, 512⟩ 1 := ⟨.inl rfl, rfl⟩

/-- A request of two sectors, of which the second fails. -/
theorem storage_restores_iff_second : ∃ (_ : Layout) (k : Kernel (Nat → Int32)),
    k.dev = (fun i => if i = 1 then 2 else 0) ∧
    (Restores k (readSector scriptIde ⟨0, 0, 0, 512⟩ 0 0x1000) ↔ Succeeds k.dev 1) ∧
    (Restores k (writeSector scriptIde ⟨0, 0, 0, 512⟩ 0 0x1000) ↔ Succeeds k.dev 2) ∧
    (Restores k (readSectors scriptIde ⟨0, 0, 0, 512⟩ 0 2 0x1000) ↔ Succeeds k.dev (2 * 1)) ∧
    (Restores k (writeSectors scriptIde ⟨0, 0, 0, 512⟩ 0 2 0x1000) ↔ Succeeds k.dev (2 * 2)) := by
  let _ := bootLayout
  exact ⟨bootLayout, Kernel.zero fun i => if i = 1 then 2 else 0, rfl,
    storage_restores_iff scripted_scriptIde geometry_512
      (show 0 < freeCount (Kernel.zero ()).kMemoryMap by simp) 0 2 0x1000⟩

/-- After a failed read of one sector a page is missing. -/
theorem storage_leak : ∃ (_ : Layout) (k : Kernel (Nat → Int32)) (r : Int32)
    (k' : Kernel (Nat → Int32)), 0 < freeCount k.kMemoryMap ∧
      (readSector scriptIde ⟨0, 0, 0, 512⟩ 0 0x1000).run k = .ok r k' ∧
      k'.kMemoryMap ≠ k.kMemoryMap := by
  let _ := bootLayout
  have hfree : 0 < freeCount (Kernel.zero fun _ : Nat => (2 : Int32)).kMemoryMap :=
    show 0 < freeCount (Kernel.zero ()).kMemoryMap by simp
  obtain ⟨r, k', hrun, ⟨hall, -⟩ | ⟨-, -, hne⟩⟩ := reads_readSector scripted_scriptIde
    geometry_512 0 0x1000 _ hfree
  · exact absurd (hall 0 Nat.zero_lt_one) (by decide)
  · exact ⟨bootLayout, _, r, k', hfree, hrun, hne⟩

end Bedrock
