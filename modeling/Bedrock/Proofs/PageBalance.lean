import Bedrock.Proofs.BootCheck
import Bedrock.Proofs.SuperblockChecks

/-!
# Pages that `ext2.c` does not give back

`ext2_read_inode` takes a page and has no `kfree` for it. Whoever calls it cannot make
up for that: a page that is in use stays in use unless its own number is freed
(`Frees`), the callers free the pages they took themselves, and the one `kfree` that
takes its number from an advanced pointer frees one page only. So in every run that
returns a page is missing afterwards, whatever the device and the file system hold.
-/

namespace Bedrock

open Lib Image

variable {δ : Type}

/-! ## Blocks in use -/

/-- All blocks in use stay in use, but for those in `freed`. -/
def Frees (freed : List Nat) (k k' : Kernel δ) : Prop :=
  ∀ i (hi : i < kMemoryMapEntries), i ∉ freed → k.kMemoryMap[i] ≠ 0 → k'.kMemoryMap[i] ≠ 0

/-- A block that was free is in use. -/
def Loses (k k' : Kernel δ) : Prop :=
  ∃ i, ∃ hi : i < kMemoryMapEntries, k.kMemoryMap[i] = 0 ∧ k'.kMemoryMap[i] ≠ 0

theorem Frees.refl {freed : List Nat} (k : Kernel δ) : Frees freed k k :=
  fun _ _ _ h => h

theorem Frees.trans {freed : List Nat} {k k₁ k₂ : Kernel δ} (h : Frees freed k k₁)
    (h' : Frees freed k₁ k₂) : Frees freed k k₂ :=
  fun i hi hnot hbusy => h' i hi hnot (h i hi hnot hbusy)

instance (freed : List Nat) : Std.Refl (Frees freed (δ := δ)) := ⟨Frees.refl⟩

instance (freed : List Nat) : IsTrans (Kernel δ) (Frees freed) := ⟨fun _ _ _ => Frees.trans⟩

theorem Frees.mono {freed freed' : List Nat} {k k' : Kernel δ} (h : Frees freed k k')
    (hsub : ∀ i ∈ freed, i ∈ freed') : Frees freed' k k' :=
  fun i hi hnot => h i hi fun hin => hnot (hsub i hin)

/-- Nothing is lost that was not in use. -/
theorem Frees.of_free {freed : List Nat} {k k' : Kernel δ} (h : Frees freed k k')
    (hfree : ∀ i ∈ freed, ∀ hi : i < kMemoryMapEntries, k.kMemoryMap[i] = 0) :
    Frees [] k k' := by
  intro i hi _ hbusy
  exact h i hi (fun hin => hbusy (hfree i hin hi)) hbusy

theorem Frees.loses {k k₁ k₂ : Kernel δ} (h : Frees [] k k₁) (hl : Loses k₁ k₂) :
    Loses k k₂ := by
  obtain ⟨i, hi, hfree, hbusy⟩ := hl
  refine ⟨i, hi, ?_, hbusy⟩
  by_contra hused
  exact h i hi List.not_mem_nil hused hfree

/-- Freeing blocks that were in use before does not bring back one that is lost. -/
theorem Loses.trans {freed : List Nat} {k k₁ k₂ : Kernel δ} (hl : Loses k k₁)
    (h : Frees freed k₁ k₂)
    (hused : ∀ i ∈ freed, ∀ hi : i < kMemoryMapEntries, k.kMemoryMap[i] ≠ 0) : Loses k k₂ := by
  obtain ⟨i, hi, hfree, hbusy⟩ := hl
  exact ⟨i, hi, hfree, h i hi (fun hin => hused i hin hi hfree) hbusy⟩

theorem frees_of_eq {k k' : Kernel δ} (h : k'.kMemoryMap = k.kMemoryMap) : Frees [] k k' := by
  intro i hi _ hbusy
  rw [h]
  exact hbusy

/-- Code that frees nothing. -/
abbrev FreesNone {α : Type} (x : Kern δ α) : Prop := Exec.OnReturn (Frees []) x

theorem freesNone_of_map {α : Type} {x : Kern δ α}
    (hx : Exec.Keeps (Exec.Same fun k : Kernel δ => k.kMemoryMap) x) : FreesNone x :=
  hx.onReturn.mono fun _ _ => frees_of_eq

theorem freesNone_kprint (message : String) : FreesNone (kprint message : Kern δ Unit) :=
  freesNone_of_map fun _ => rfl

theorem freesNone_kprintMsg (msg : Msg) : FreesNone (kprintMsg msg : Kern δ Unit) :=
  freesNone_of_map fun _ => rfl

theorem freesNone_kprintInt (value : UInt32) : FreesNone (kprintInt value : Kern δ Unit) :=
  freesNone_of_map fun _ => rfl

theorem freesNone_read16 (p : UInt32) : FreesNone (read16 p : Kern δ UInt16) :=
  freesNone_of_map fun _ => rfl

theorem freesNone_read32 (p : UInt32) : FreesNone (read32 p : Kern δ UInt32) :=
  freesNone_of_map fun _ => rfl

theorem freesNone_memoryCopy (source dest : UInt32) (nbytes : Int32) :
    FreesNone (memoryCopy source dest nbytes : Kern δ Unit) :=
  freesNone_of_map fun _ => rfl

theorem freesNone_idiv (a b : Int32) : FreesNone (idiv a b : Kern δ Int32) := by
  rw [idiv]
  split
  · intro k r k' h
    cases h
  · exact .pure _

theorem freesNone_ofMachine {α : Type} (x : Exec Halt (Machine δ) α) :
    FreesNone (Kern.ofMachine x) := by
  refine freesNone_of_map fun k => ?_
  rw [EStateM.run, Kern.ofMachine]
  split
  · rfl
  · rfl

theorem freesNone_strcmp (fuel : Nat) (s t : Nat → UInt8) :
    FreesNone (strcmp fuel s t : Kern δ Int32) := by
  rw [strcmp]
  split
  · exact .pure _
  · intro k r k' h
    cases h

theorem freesNone_strlen (fuel : Nat) (s : Nat → UInt8) :
    FreesNone (strlen fuel s : Kern δ Int32) := by
  rw [strlen]
  split
  · exact .pure _
  · intro k r k' h
    cases h

theorem freesNone_ofExcept {α : Type} (x : Except Halt α) :
    FreesNone (Kern.ofExcept x : Kern δ α) := by
  cases x with
  | ok a => exact .pure a
  | error e =>
      intro k r k' h
      cases h

section

variable [Layout]

theorem takes_of_kmalloc {k k' : Kernel δ} {p : UInt32} (h : (kmalloc 1).run k = .ok p k') :
    ∃ i, p = blockAddr i ∧ Takes k k' i := by
  obtain ⟨hfree, -⟩ := kmalloc_inv (n := 1) (by decide) h
  obtain ⟨i, k₁, htakes⟩ := kmalloc_takes (k := k) hfree
  rw [htakes.run] at h
  cases h
  exact ⟨i, rfl, htakes⟩

theorem Takes.frees {k k' : Kernel δ} {i : Nat} (h : Takes k k' i) : Frees [] k k' :=
  fun _ hj _ hbusy => (h.other hj hbusy).2

theorem kfree_frees {a : UInt32} {k k' : Kernel δ} (h : (kfree a 1).run k = .ok () k') :
    ∃ i, Frees [i] k k' := by
  generalize hlo : ((a - Layout.kmallocMemory) / blockSize).toNat = lo
  by_cases hin : lo < kMemoryMapEntries
  · rw [kfree_run (by rw [hlo]; exact hin), hlo] at h
    cases h
    refine ⟨lo, fun j hj hne hbusy => ?_⟩
    rw [List.mem_singleton] at hne
    simp only [show (1 : UInt32).toNat = 1 from rfl, getElem_mapRange]
    rwa [if_neg (by omega)]
  · -- behind the map the store traps
    have hlt : lo < 2 ^ 20 := by
      have ha := (a - Layout.kmallocMemory).toNat_lt
      rw [← hlo, UInt32.toNat_div, show blockSize.toNat = 4096 from rfl]
      omega
    have hcount : ((a - Layout.kmallocMemory) / blockSize + 1).toNat - lo = 0 + 1 := by
      rw [UInt32.toNat_add, hlo, show (1 : UInt32).toNat = 1 from rfl]
      omega
    rw [kfree] at h
    simp only [hlo, hcount] at h
    obtain ⟨_, k₁, hset, -⟩ := Exec.bind_inv h
    rw [kMemoryMapSet, Exec.bind_ok (EStateM.run_get k), dif_neg hin] at hset
    cases hset

theorem kfree_block_frees {i : Nat} (hi : i < kMemoryMapEntries) {k k' : Kernel δ}
    (h : (kfree (blockAddr i) 1).run k = .ok () k') : Frees [i] k k' := by
  rw [kfree_block hi] at h
  cases h
  intro j hj hne hbusy
  rw [List.mem_singleton] at hne
  simp only [getElem_mapRange]
  rwa [if_neg (by omega)]

/-- A page that is taken and given back again. -/
theorem Takes.frees_back {k k₁ k₂ k₃ : Kernel δ} {i : Nat} (h : Takes k k₁ i)
    (hrest : Frees [] k₁ k₂) (hfree : (kfree (blockAddr i) 1).run k₂ = .ok () k₃) :
    Frees [] k k₃ := by
  have hall : Frees [i] k k₃ := ((h.frees.trans hrest).mono fun _ hin => nomatch hin).trans
    (kfree_block_frees h.lt hfree)
  refine hall.of_free fun j hj hlt => ?_
  obtain rfl := List.mem_singleton.mp hj
  exact h.free

/-! ## The storage layer -/

omit [Layout] in
theorem freesNone_locate (device : DeviceInfo) (sector : Int32) :
    FreesNone (locate device sector : Kern δ Place) :=
  .bind (freesNone_idiv _ _) fun _ => .bind (freesNone_idiv _ _) fun _ => .pure _

variable (ide : Ide δ)

theorem freesNone_readSector (device : DeviceInfo) (sector : Int32) (buffer : UInt32) :
    FreesNone (readSector ide device sector buffer) := by
  intro k r k' h
  obtain ⟨p, k₁, hpage, h⟩ := Exec.bind_inv h
  obtain ⟨i, rfl, ht⟩ := takes_of_kmalloc hpage
  obtain ⟨place, k₂, hplace, h⟩ := Exec.bind_inv h
  obtain ⟨err, k₃, hread, h⟩ := Exec.bind_inv h
  have hread₃ : Frees [] k₁ k₃ :=
    (freesNone_locate device sector hplace).trans (freesNone_ofMachine _ hread)
  by_cases herr : err ≠ 0
  · rw [if_pos herr] at h
    obtain ⟨-, rfl⟩ := Exec.pure_inv h
    exact ht.frees.trans hread₃
  · rw [if_neg herr] at h
    obtain ⟨_, k₄, hcopy, h⟩ := Exec.bind_inv h
    obtain ⟨_, k₅, hfree, h⟩ := Exec.bind_inv h
    obtain ⟨-, rfl⟩ := Exec.pure_inv h
    exact ht.frees_back (hread₃.trans (freesNone_memoryCopy _ _ _ hcopy)) hfree

theorem freesNone_readSectors (device : DeviceInfo) (sector count : Int32) (buffer : UInt32) :
    FreesNone (readSectors ide device sector count buffer) := by
  rw [readSectors]
  generalize count.toInt.toNat = n
  generalize 0 = c
  induction n generalizing c with
  | zero => exact .pure _
  | succ n ih =>
      exact .bind (freesNone_readSector ide device _ _) fun err => .ite (.pure _) (ih (c + 1))

/-! ## `ext2_read_inode` and `ext2_read_directory` -/

variable (dev : DeviceInfo) (priv : Ext2PrivData)

theorem freesNone_ext2ReadBlock (block buf : UInt32) :
    FreesNone (ext2ReadBlock ide dev priv block buf) :=
  .bind (freesNone_readSectors ide dev _ _ _) fun _ => .pure _

variable {ide dev priv}

/-- The page of the block stays in use. -/
theorem ext2ReadInode_loses {inode inodeBuf : UInt32} {k k' : Kernel δ} {r : Unit}
    (h : (ext2ReadInode ide dev priv inode inodeBuf).run k = .ok r k') :
    Frees [] k k' ∧ Loses k k' := by
  rw [ext2ReadInode] at h
  obtain ⟨bg, k₁, hbg, h⟩ := Exec.bind_inv h
  obtain ⟨p, k₂, hpage, h⟩ := Exec.bind_inv h
  obtain ⟨b, rfl, ht⟩ := takes_of_kmalloc hpage
  have hfirst : Frees [] k k₁ := freesNone_ofExcept _ hbg
  have hrest : Frees [] k₂ k' := by
    refine (Exec.OnReturn.bind (R := Frees []) (freesNone_ext2ReadBlock ide dev priv _ _)
      fun _ => .bind (freesNone_kprint _) fun _ => .bind (freesNone_kprintInt _)
      fun _ => .bind (freesNone_kprint _) fun _ => .bind (freesNone_ofExcept _) fun _ =>
      .bind (freesNone_kprint _) fun _ => .bind (freesNone_kprintInt _) fun _ =>
      .bind (freesNone_kprint _) fun _ => .bind (freesNone_ofExcept _) fun _ =>
      .bind (freesNone_read32 _) fun _ => .bind (freesNone_kprint _) fun _ =>
      .bind (freesNone_kprintInt _) fun _ => .bind (freesNone_kprint _) fun _ =>
      .bind (freesNone_ext2ReadBlock ide dev priv _ _) fun _ =>
      .bind (freesNone_ofExcept _) fun _ => freesNone_memoryCopy _ _ _) h
  refine ⟨(hfirst.trans ht.frees).trans hrest, ?_⟩
  exact hfirst.loses ⟨b, ht.lt, ht.free, hrest b ht.lt List.not_mem_nil ht.busy⟩

omit [Layout] in
theorem freesNone_ext2NameMatches (fuel : Nat) (filename name : UInt32) :
    FreesNone (ext2NameMatches fuel filename name : Kern δ Bool) :=
  .ite (.pure _) (.bind (freesNone_of_map fun _ => rfl) fun _ =>
    .bind (freesNone_strcmp _ _ _) fun _ => .pure _)

theorem ext2EntryName_takes {dir name : UInt32} {k k' : Kernel δ}
    (h : (ext2EntryName dir).run k = .ok name k') :
    ∃ n k₁, name = blockAddr n ∧ Takes k k₁ n ∧ Frees [] k₁ k' := by
  obtain ⟨p, k₁, hpage, h⟩ := Exec.bind_inv h
  obtain ⟨n, rfl, ht⟩ := takes_of_kmalloc hpage
  obtain ⟨_, k₂, hget, h⟩ := Exec.bind_inv h
  obtain ⟨_, k₃, hcopy, h⟩ := Exec.bind_inv h
  obtain ⟨_, k₄, hnul, h⟩ := Exec.bind_inv h
  obtain ⟨rfl, rfl⟩ := Exec.pure_inv h
  cases hget
  cases hcopy
  cases hnul
  exact ⟨n, _, rfl, ht, frees_of_eq rfl⟩

/-- The page of an entry's name is given back on both ways out of a round. -/
theorem freesNone_ext2ReadDirectoryLoop (fuel : Nat) (filename : UInt32) (rounds : Nat)
    (dir : UInt32) :
    FreesNone (ext2ReadDirectoryLoop fuel filename rounds dir : Kern δ UInt32) := by
  induction rounds generalizing dir with
  | zero =>
      intro k r k' h
      cases h
  | succ rounds ih =>
      intro k r k' h
      rw [ext2ReadDirectoryLoop, Exec.bind_ok (read32_run dir k)] at h
      by_cases h0 : k.mem.load32 dir = 0
      · rw [if_pos h0] at h
        obtain ⟨-, rfl⟩ := Exec.pure_inv h
        exact Frees.refl _
      · rw [if_neg h0] at h
        obtain ⟨name, k₁, hname, h⟩ := Exec.bind_inv h
        obtain ⟨n, k₂, rfl, ht, hcopy⟩ := ext2EntryName_takes hname
        obtain ⟨found, k₃, hmatch, h⟩ := Exec.bind_inv h
        have hbusy := hcopy.trans (freesNone_ext2NameMatches fuel filename _ hmatch)
        cases found with
        | true =>
            rw [if_pos rfl] at h
            obtain ⟨_, k₄, h₄, h⟩ := Exec.bind_inv h
            obtain ⟨_, k₅, h₅, h⟩ := Exec.bind_inv h
            obtain ⟨_, k₆, h₆, h⟩ := Exec.bind_inv h
            obtain ⟨inode, k₇, h₇, h⟩ := Exec.bind_inv h
            obtain ⟨_, k₈, h₈, h⟩ := Exec.bind_inv h
            obtain ⟨_, k₉, h₉, h⟩ := Exec.bind_inv h
            obtain ⟨_, k₁₀, hfree, h⟩ := Exec.bind_inv h
            have hprints := ((((hbusy.trans (freesNone_kprint _ h₄)).trans
              (freesNone_kprintMsg _ h₅)).trans (freesNone_kprint _ h₆)).trans
              (freesNone_read32 _ h₇)).trans ((freesNone_kprintInt _ h₈).trans
                (freesNone_kprint _ h₉))
            exact (ht.frees_back hprints hfree).trans
              (Exec.OnReturn.bind (freesNone_read32 dir) (fun _ => .pure _) h)
        | false =>
            rw [if_neg Bool.false_ne_true] at h
            by_cases hnull : filename = 0
            · rw [if_pos hnull] at h
              obtain ⟨_, k₄, h₄, h⟩ := Exec.bind_inv h
              obtain ⟨_, k₅, h₅, h⟩ := Exec.bind_inv h
              obtain ⟨size, k₆, h₆, h⟩ := Exec.bind_inv h
              obtain ⟨_, k₇, hfree, h⟩ := Exec.bind_inv h
              have hprints := hbusy.trans (((freesNone_kprintMsg _ h₄).trans
                (freesNone_kprint _ h₅)).trans (freesNone_read16 _ h₆))
              exact (ht.frees_back hprints hfree).trans (ih _ h)
            · rw [if_neg hnull] at h
              obtain ⟨size, k₄, h₄, h⟩ := Exec.bind_inv h
              obtain ⟨_, k₅, hfree, h⟩ := Exec.bind_inv h
              exact (ht.frees_back (hbusy.trans (freesNone_read16 _ h₄)) hfree).trans (ih _ h)

theorem freesNone_ext2ReadDirectory (fuel : Nat) (filename dir : UInt32) :
    FreesNone (ext2ReadDirectory fuel filename dir : Kern δ UInt32) :=
  freesNone_ext2ReadDirectoryLoop fuel filename fuel dir

/-! ## `ext2_read_root_directory` -/

omit [Layout] in
/-- A loop over the direct blocks relates its ends as its rounds do. -/
theorem forDirectBlocks_returns {α : Type} {P : Option α → Kernel δ → Kernel δ → Prop}
    (hrefl : ∀ k, P none k k) (htrans : ∀ {a k k₁ k₂}, P none k k₁ → P a k₁ k₂ → P a k k₂)
    {inode : UInt32} {body : UInt32 → Kern δ (Option α)}
    (hbody : ∀ b {k a k'}, (body b).run k = .ok a k' → P a k k') {n i : Nat} {k k' : Kernel δ}
    {a : Option α} (h : (forDirectBlocks inode body n i).run k = .ok a k') : P a k k' := by
  induction n generalizing i k with
  | zero =>
      obtain ⟨rfl, rfl⟩ := Exec.pure_inv h
      exact hrefl _
  | succ n ih =>
      rw [forDirectBlocks, Exec.bind_ok (read32_run _ k)] at h
      by_cases h0 : k.mem.load32 (inode + 40 + UInt32.ofNat (4 * i)) = 0
      · rw [if_pos h0] at h
        obtain ⟨rfl, rfl⟩ := Exec.pure_inv h
        exact hrefl _
      · rw [if_neg h0] at h
        obtain ⟨left, k₁, hround, h⟩ := Exec.bind_inv h
        cases left with
        | some a =>
            obtain ⟨rfl, rfl⟩ := Exec.pure_inv h
            exact hbody _ hround
        | none => exact htrans (hbody _ hround) (ih h)

theorem ext2ReadRootDirectory_loses {fuel : Nat} {filename rootBuf : UInt32} {k k' : Kernel δ}
    {r : UInt8} (h : (ext2ReadRootDirectory ide dev priv fuel filename rootBuf).run k = .ok r k') :
    Frees [] k k' ∧ Loses k k' := by
  obtain ⟨p, k₁, hpage, h⟩ := Exec.bind_inv h
  obtain ⟨j, rfl, ht⟩ := takes_of_kmalloc hpage
  obtain ⟨_, k₂, hread, h⟩ := Exec.bind_inv h
  obtain ⟨hframe, hlost⟩ := ext2ReadInode_loses hread
  have hkeep : ∀ {k k' : Kernel δ}, Frees [] k k' → Frees [j] k k' := fun h =>
    h.mono fun _ hin => nomatch hin
  have hrelease : ∀ {k k' : Kernel δ}, (kfree (blockAddr j) 1).run k = .ok () k' →
    Frees [j] k k' := kfree_block_frees ht.lt
  have hrest : Frees [j] k₂ k' := by
    rw [Exec.bind_ok (read16_run _ k₂)] at h
    by_cases hdir : k₂.mem.load16 (blockAddr j) &&& 0xF000 ≠ 0x4000
    · rw [if_pos hdir] at h
      obtain ⟨_, k₃, hprint, h⟩ := Exec.bind_inv h
      obtain ⟨_, k₄, hfree, h⟩ := Exec.bind_inv h
      obtain ⟨-, rfl⟩ := Exec.pure_inv h
      exact (hkeep (freesNone_kprint _ hprint)).trans (hrelease hfree)
    · rw [if_neg hdir] at h
      obtain ⟨left, k₃, hloop, h⟩ := Exec.bind_inv h
      have hleft : Frees (if left.isSome then [j] else []) k₂ k₃ := by
        refine forDirectBlocks_returns (P := fun left k k' =>
          Frees (if left.isSome then [j] else []) k k') Frees.refl ?_ ?_ hloop
        · intro left k k₁ k₂ hbefore hround
          exact (hbefore.mono fun _ hin => nomatch hin).trans hround
        · intro b k left k' hround
          obtain ⟨_, k₄, hblock, hround⟩ := Exec.bind_inv hround
          obtain ⟨rc, k₅, hsearch, hround⟩ := Exec.bind_inv hround
          have hread := (freesNone_ext2ReadBlock ide dev priv _ _ hblock).trans
            (freesNone_ext2ReadDirectory _ _ _ hsearch)
          by_cases hrc : rc = 0
          · rw [if_pos hrc] at hround
            obtain ⟨rfl, rfl⟩ := Exec.pure_inv hround
            exact hread
          · rw [if_neg hrc] at hround
            obtain ⟨_, k₆, hfree, hround⟩ := Exec.bind_inv hround
            obtain ⟨rfl, rfl⟩ := Exec.pure_inv hround
            exact (hkeep hread).trans (hrelease hfree)
      cases left with
      | some v =>
          obtain ⟨-, rfl⟩ := Exec.pure_inv h
          exact hleft
      | none =>
          obtain ⟨_, k₄, hfree, h⟩ := Exec.bind_inv h
          refine ((hkeep hleft).trans (hrelease hfree)).trans ?_
          exact hkeep (Exec.OnReturn.ite (.pure _) (.pure _) h)
  refine ⟨?_, (ht.frees.loses (hlost.trans hrest ?_))⟩
  · refine (((hkeep (ht.frees.trans hframe))).trans hrest).of_free fun i hi hlt => ?_
    obtain rfl := List.mem_singleton.mp hi
    exact ht.free
  · intro i hi hlt
    obtain rfl := List.mem_singleton.mp hi
    exact ht.busy

/-! ## `ext2_find_file_inode` -/

/-- The pages of the search are given back, and one block whose number comes from the
pointer into the path. -/
theorem ext2FindRelease_frees {filename : UInt32} {i r : Nat} (hi : i < kMemoryMapEntries)
    (hr : r < kMemoryMapEntries) {k k' : Kernel δ}
    (h : (ext2FindRelease filename (blockAddr i) (blockAddr r)).run k = .ok () k') :
    ∃ x, Frees [x, i, r] k k' := by
  obtain ⟨_, k₁, hname, h⟩ := Exec.bind_inv h
  obtain ⟨_, k₂, hinode, hroot⟩ := Exec.bind_inv h
  obtain ⟨x, hx⟩ := kfree_frees hname
  refine ⟨x, ((hx.mono ?_).trans ((kfree_block_frees hi hinode).mono ?_)).trans
    ((kfree_block_frees hr hroot).mono ?_)⟩
  · intro j hj
    simp only [List.mem_singleton.mp hj, List.mem_cons, true_or]
  · intro j hj
    simp only [List.mem_singleton.mp hj, List.mem_cons, true_or, or_true]
  · intro j hj
    simp only [List.mem_singleton.mp hj, List.mem_cons, true_or, or_true]

/-- What has been freed when a part of the search ends: the pages of the search where the
function returns at once. -/
def FreesAt {α : Type} (i r : Nat) : Except UInt8 α → Kernel δ → Kernel δ → Prop
  | .error _ => fun k k' => ∃ x, Frees [x, i, r] k k'
  | .ok _ => Frees []

omit [Layout] in
theorem FreesAt.after {α : Type} {i r : Nat} {a : Except UInt8 α} {k k₁ k₂ : Kernel δ}
    (h : Frees [] k k₁) (h' : FreesAt i r a k₁ k₂) : FreesAt i r a k k₂ := by
  cases a with
  | error v =>
      obtain ⟨x, hx⟩ := h'
      exact ⟨x, (h.mono fun _ hin => nomatch hin).trans hx⟩
  | ok v => exact h.trans h'

variable {i r : Nat} {fuel : Nat} {ff : UInt32}

theorem ext2FindInBlock_frees (hi : i < kMemoryMapEntries) (hr : r < kMemoryMapEntries)
    {filename retnode b : UInt32} {left : Option (Except UInt8 UInt32)} {k k' : Kernel δ}
    (h : (ext2FindInBlock ide dev priv fuel ff (blockAddr i) (blockAddr r) filename retnode b).run
      k = .ok left k') : left.elim (Frees [] k k') (FreesAt i r · k k') := by
  obtain ⟨_, k₁, hblock, h⟩ := Exec.bind_inv h
  obtain ⟨rc, k₂, hsearch, h⟩ := Exec.bind_inv h
  have hread := (freesNone_ext2ReadBlock ide dev priv _ _ hblock).trans
    (freesNone_ext2ReadDirectory _ _ _ hsearch)
  have hkeep : ∀ {k k' : Kernel δ} {x : Nat}, Frees [] k k' → Frees [x, i, r] k k' := fun h =>
    h.mono fun _ hin => nomatch hin
  by_cases hrc : rc = 0
  · rw [if_pos hrc, Exec.bind_ok (EStateM.run_get k₂)] at h
    obtain ⟨empty, k₃, hempty, h⟩ := Exec.bind_inv h
    have hfirst := hread.trans (freesNone_strcmp _ _ _ hempty)
    by_cases hname : empty = 0
    · rw [if_pos hname] at h
      obtain ⟨_, k₄, hrelease, h⟩ := Exec.bind_inv h
      obtain ⟨x, hx⟩ := ext2FindRelease_frees hi hr hrelease
      rw [Exec.bind_ok (EStateM.run_get k₄)] at h
      obtain ⟨root, k₅, hroot, h⟩ := Exec.bind_inv h
      have hall := ((hkeep hfirst).trans hx).trans (hkeep (freesNone_strcmp _ _ _ hroot))
      by_cases hslash : root = 0
      · rw [if_pos hslash] at h
        obtain ⟨rfl, rfl⟩ := Exec.pure_inv h
        exact ⟨x, hall⟩
      · rw [if_neg hslash] at h
        obtain ⟨rfl, rfl⟩ := Exec.pure_inv h
        exact ⟨x, hall⟩
    · rw [if_neg hname] at h
      obtain ⟨_, k₄, h₄, h⟩ := Exec.bind_inv h
      obtain ⟨_, k₅, h₅, h⟩ := Exec.bind_inv h
      obtain ⟨_, k₆, h₆, h⟩ := Exec.bind_inv h
      obtain ⟨_, k₇, hrelease, h⟩ := Exec.bind_inv h
      obtain ⟨rfl, rfl⟩ := Exec.pure_inv h
      obtain ⟨x, hx⟩ := ext2FindRelease_frees hi hr hrelease
      exact ⟨x, (hkeep (hfirst.trans (((freesNone_kprint _ h₄).trans
        (freesNone_kprintMsg _ h₅)).trans (freesNone_kprint _ h₆)))).trans hx⟩
  · rw [if_neg hrc] at h
    obtain ⟨_, k₃, hinode, h⟩ := Exec.bind_inv h
    obtain ⟨rfl, rfl⟩ := Exec.pure_inv h
    exact hread.trans (ext2ReadInode_loses hinode).1

theorem ext2FindLoop_frees (hi : i < kMemoryMapEntries) (hr : r < kMemoryMapEntries) {n : Nat}
    {filename retnode : UInt32} {a : Except UInt8 (UInt32 × UInt32)} {k k' : Kernel δ}
    (h : (ext2FindLoop ide dev priv fuel ff (blockAddr i) (blockAddr r) n filename retnode).run k =
      .ok a k') : FreesAt i r a k k' := by
  induction n generalizing filename retnode k with
  | zero =>
      obtain ⟨rfl, rfl⟩ := Exec.pure_inv h
      exact Frees.refl _
  | succ n ih =>
      rw [ext2FindLoop] at h
      obtain ⟨_, k₁, h₁, h⟩ := Exec.bind_inv h
      obtain ⟨_, k₂, h₂, h⟩ := Exec.bind_inv h
      obtain ⟨_, k₃, h₃, h⟩ := Exec.bind_inv h
      obtain ⟨left, k₄, hloop, h⟩ := Exec.bind_inv h
      have hprints := ((freesNone_kprint _ h₁).trans (freesNone_kprintMsg _ h₂)).trans
        (freesNone_kprint _ h₃)
      have hround : left.elim (Frees [] k₃ k₄) (FreesAt i r · k₃ k₄) := by
        refine forDirectBlocks_returns (P := fun left k k' =>
          left.elim (Frees [] k k') (FreesAt i r · k k')) Frees.refl ?_
          (fun b => ext2FindInBlock_frees hi hr) hloop
        intro left k k₁ k₂ hbefore hround
        cases left with
        | none => exact Frees.trans hbefore hround
        | some a => exact FreesAt.after hbefore hround
      cases left with
      | none =>
          rw [Exec.bind_ok (EStateM.run_get k₄)] at h
          obtain ⟨s, k₅, hlen, h⟩ := Exec.bind_inv h
          exact FreesAt.after ((hprints.trans hround).trans (freesNone_strlen _ _ hlen)) (ih h)
      | some b =>
          cases b with
          | error v =>
              obtain ⟨rfl, rfl⟩ := Exec.pure_inv h
              exact FreesAt.after (a := .error v) hprints hround
          | ok rc =>
              rw [Exec.bind_ok (EStateM.run_get k₄)] at h
              obtain ⟨s, k₅, hlen, h⟩ := Exec.bind_inv h
              exact FreesAt.after ((hprints.trans hround).trans (freesNone_strlen _ _ hlen)) (ih h)

/-- From the pages of the search on, a page is lost before anything is freed, and at the
end three blocks are freed at most. -/
def LosesFirst (i r : Nat) (k k' : Kernel δ) : Prop :=
  ∃ k₁ x, Frees [] k k₁ ∧ Loses k k₁ ∧ Frees [x, i, r] k₁ k'

theorem ext2FindFromRoot_loses (hi : i < kMemoryMapEntries) (hr : r < kMemoryMapEntries)
    {inodeBuf filename : UInt32} {n : Nat} {v : UInt8} {k k' : Kernel δ}
    (h : (ext2FindFromRoot ide dev priv fuel ff inodeBuf (blockAddr i) (blockAddr r) filename
      n).run k = .ok v k') : LosesFirst i r k k' := by
  obtain ⟨_, k₁, hinode, h⟩ := Exec.bind_inv h
  obtain ⟨hframe, hlost⟩ := ext2ReadInode_loses hinode
  obtain ⟨a, k₂, hloop, h⟩ := Exec.bind_inv h
  have hwalk := ext2FindLoop_frees hi hr hloop
  cases a with
  | error w =>
      obtain ⟨-, rfl⟩ := Exec.pure_inv h
      obtain ⟨x, hx⟩ := hwalk
      exact ⟨k₁, x, hframe, hlost, hx⟩
  | ok last =>
      obtain ⟨_, k₃, hcopy, h⟩ := Exec.bind_inv h
      obtain ⟨_, k₄, hrelease, h⟩ := Exec.bind_inv h
      obtain ⟨-, rfl⟩ := Exec.pure_inv h
      obtain ⟨x, hx⟩ := ext2FindRelease_frees hi hr hrelease
      have hloop' : Frees [] k₁ k₃ := Frees.trans hwalk (freesNone_memoryCopy _ _ _ hcopy)
      exact ⟨k₁, x, hframe, hlost, (hloop'.mono fun _ hin => nomatch hin).trans hx⟩

omit [Layout] in
theorem freesNone_strsplit (fuel : Nat) (str : UInt32) (delim : UInt8) :
    FreesNone (strsplit fuel str delim : Kern δ Int32) := by
  intro k n k' h
  rw [strsplit, Exec.bind_ok (EStateM.run_get k)] at h
  cases hsplit : strsplitLoop str delim fuel 0 0 k.mem with
  | none =>
      rw [hsplit] at h
      cases h
  | some split =>
      rw [hsplit] at h
      cases h
      exact frees_of_eq rfl

theorem ext2FindFileInode_loses {inodeBuf : UInt32} {v : UInt8} {k k' : Kernel δ}
    (h : (ext2FindFileInode ide dev priv fuel ff inodeBuf).run k = .ok v k') : Loses k k' := by
  obtain ⟨p, k₁, hpage, h⟩ := Exec.bind_inv h
  obtain ⟨i, rfl, hi⟩ := takes_of_kmalloc hpage
  obtain ⟨p, k₂, hpage, h⟩ := Exec.bind_inv h
  obtain ⟨r, rfl, hr⟩ := takes_of_kmalloc hpage
  obtain ⟨p, k₃, hpage, h⟩ := Exec.bind_inv h
  obtain ⟨f, rfl, hf⟩ := takes_of_kmalloc hpage
  rw [Exec.bind_ok (EStateM.run_get k₃)] at h
  obtain ⟨len, k₄, hlen, h⟩ := Exec.bind_inv h
  obtain ⟨_, k₅, hcopy, h⟩ := Exec.bind_inv h
  obtain ⟨n, k₆, hsplit, h⟩ := Exec.bind_inv h
  have hsetup : Frees [] k₃ k₆ := ((freesNone_strlen _ _ hlen).trans
    (freesNone_memoryCopy _ _ _ hcopy)).trans (freesNone_strsplit _ _ _ hsplit)
  have hsearch : LosesFirst i r k₆ k' := by
    by_cases hn : 1 < n
    · rw [if_pos hn] at h
      exact ext2FindFromRoot_loses hi.lt hr.lt h
    · rw [if_neg hn] at h
      obtain ⟨found, k₇, hroot, h⟩ := Exec.bind_inv h
      obtain ⟨_, k₈, hcopy', h⟩ := Exec.bind_inv h
      obtain ⟨_, k₉, hrelease, h⟩ := Exec.bind_inv h
      obtain ⟨-, rfl⟩ := Exec.pure_inv h
      obtain ⟨hframe, hlost⟩ := ext2ReadRootDirectory_loses hroot
      obtain ⟨x, hx⟩ := ext2FindRelease_frees hi.lt hr.lt hrelease
      exact ⟨k₇, x, hframe, hlost,
        ((freesNone_memoryCopy _ _ _ hcopy').mono fun _ hin => nomatch hin).trans hx⟩
  obtain ⟨k₇, x, hframe, ⟨b, hb, hbfree, hbbusy⟩, hfreed⟩ := hsearch
  have htaken : Frees [] k k₂ := hi.frees.trans hr.frees
  have hpages : Frees [] k₂ k₆ := hf.frees.trans hsetup
  have hnil : ∀ j : Nat, j ∉ ([] : List Nat) := fun _ => List.not_mem_nil
  have hi₂ := hr.frees i hi.lt (hnil i) hi.busy
  have hne : ∀ {j : Nat} (hj : j < kMemoryMapEntries), k₂.kMemoryMap[j] ≠ 0 → j ≠ b := by
    rintro j hj hbusy rfl
    exact hpages j hj (hnil j) hbusy hbfree
  have hfb : f ≠ b := by
    rintro rfl
    exact hsetup f hf.lt (hnil f) hf.busy hbfree
  have hflt := hf.lt
  by_cases hx : x = b
  · -- the names' page is not freed
    have hffree : k.kMemoryMap[f] = 0 := by
      by_contra hused
      exact htaken f hf.lt (hnil f) hused hf.free
    have hfbusy : k₇.kMemoryMap[f] ≠ 0 :=
      (hsetup.trans hframe) f hf.lt (hnil f) hf.busy
    refine ⟨f, hf.lt, hffree, hfreed f hf.lt ?_ hfbusy⟩
    have hfi := (hf.other hi.lt hi₂).1
    have hfr := (hf.other hr.lt hr.busy).1
    simp only [List.mem_cons, List.not_mem_nil, or_false, not_or]
    exact ⟨fun heq => hfb (heq.trans hx), Ne.symm hfi, Ne.symm hfr⟩
  · have hbk : k.kMemoryMap[b] = 0 := by
      by_contra hused
      exact (htaken.trans hpages) b hb (hnil b) hused hbfree
    refine ⟨b, hb, hbk, hfreed b hb ?_ hbbusy⟩
    simp only [List.mem_cons, List.not_mem_nil, or_false, not_or]
    exact ⟨Ne.symm hx, Ne.symm (hne hi.lt hi₂), Ne.symm (hne hr.lt hr.busy)⟩

/-! ## `ext2_init` -/

omit [Layout] in
theorem freesNone_storePrivData (sb priv : UInt32) :
    FreesNone (storePrivData sb priv : Kern δ Ext2PrivData) :=
  .bind (freesNone_of_map fun _ => rfl) fun _ => .bind (freesNone_ofExcept _) fun _ =>
    .bind (freesNone_of_map fun _ => rfl) fun _ => .bind (freesNone_memoryCopy _ _ _) fun _ =>
    .pure _

theorem ext2Init_loses {sysCfg : UInt32} {v : Unit} {k k' : Kernel δ}
    (h : (ext2Init ide dev fuel sysCfg).run k = .ok v k') : Loses k k' := by
  rw [ext2Init, Exec.bind_ok (kprint_run _ _), Exec.bind_ok (kprint_run _ _)] at h
  obtain ⟨p, k₁, hpage, h⟩ := Exec.bind_inv h
  obtain ⟨s, rfl, hs⟩ := takes_of_kmalloc hpage
  obtain ⟨_, k₂, hload, h⟩ := Exec.bind_inv h
  obtain ⟨p, k₃, hpage, h⟩ := Exec.bind_inv h
  obtain ⟨t, rfl, ht⟩ := takes_of_kmalloc hpage
  obtain ⟨data, k₄, hfill, h⟩ := Exec.bind_inv h
  have hbegin : Frees [] k k₁ := hs.frees
  have hread : Frees [] k₁ k₂ := freesNone_readSectors ide dev _ _ _ hload
  have hfilled : Frees [] k₃ k₄ := freesNone_storePrivData _ _ hfill
  rw [Exec.bind_ok (read16_run _ k₄)] at h
  by_cases hsig : k₄.mem.load16 (blockAddr s + 56) ≠ 0xEF53
  · rw [if_pos hsig] at h
    obtain ⟨_, k₅, hprint, h⟩ := Exec.bind_inv h
    obtain ⟨-, rfl⟩ := Exec.pure_inv h
    have hrest := ((hread.trans ht.frees).trans hfilled).trans (freesNone_kprint _ hprint)
    exact ⟨s, hs.lt, hs.free, hrest s hs.lt List.not_mem_nil hs.busy⟩
  · rw [if_neg hsig] at h
    obtain ⟨_, k₅, h₅, h⟩ := Exec.bind_inv h
    obtain ⟨_, k₆, h₆, h⟩ := Exec.bind_inv h
    obtain ⟨_, k₇, h₇, h⟩ := Exec.bind_inv h
    obtain ⟨_, k₈, h₈, h⟩ := Exec.bind_inv h
    obtain ⟨_, k₉, h₉, h⟩ := Exec.bind_inv h
    obtain ⟨p, k₁₀, hpage, h⟩ := Exec.bind_inv h
    obtain ⟨n, rfl, hn⟩ := takes_of_kmalloc hpage
    have hprints := (((freesNone_kprint _ h₅).trans (freesNone_kprint _ h₆)).trans
      (freesNone_read32 _ h₇)).trans ((freesNone_kprintInt _ h₈).trans (freesNone_kprint _ h₉))
    obtain ⟨found, k₁₁, hfind, h⟩ := Exec.bind_inv h
    have hlost := ext2FindFileInode_loses hfind
    rw [Exec.bind_ok (read16_run _ k₁₁)] at h
    by_cases htype : k₁₁.mem.load16 (blockAddr n) &&& 0xF000 ≠ 0x8000
    · rw [if_pos htype] at h
      cases h
    · rw [if_neg htype] at h
      obtain ⟨_, k₁₂, hfree₁, h⟩ := Exec.bind_inv h
      obtain ⟨_, k₁₃, hfree₂, hfree₃⟩ := Exec.bind_inv h
      have hfreed : Frees [n, s, t] k₁₁ k' := by
        refine (((kfree_block_frees hn.lt hfree₁).mono ?_).trans
          ((kfree_block_frees hs.lt hfree₂).mono ?_)).trans
          ((kfree_block_frees ht.lt hfree₃).mono ?_)
        all_goals
          intro j hj
          simp only [List.mem_singleton.mp hj, List.mem_cons, true_or, or_true]
      have hlater : Frees [] k₃ k₁₀ := (hfilled.trans hprints).trans hn.frees
      have hbefore : Frees [] k k₁₀ := ((hbegin.trans hread).trans ht.frees).trans hlater
      -- the pages that are freed here were in use during the search
      refine hbefore.loses (hlost.trans hfreed fun j hj hlt => ?_)
      simp only [List.mem_cons, List.not_mem_nil, or_false] at hj
      rcases hj with rfl | rfl | rfl
      · exact hn.busy
      · exact ((hread.trans ht.frees).trans hlater) j hlt List.not_mem_nil hs.busy
      · exact hlater j hlt List.not_mem_nil ht.busy

end

/-! ## Main result -/

/-- In every run that returns, the map is another one afterwards. -/
def NeverRestores {α : Type} (x : Kern δ α) : Prop :=
  ∀ k a k', x.run k = .ok a k' → k'.kMemoryMap ≠ k.kMemoryMap

theorem Loses.ne {k k' : Kernel δ} (h : Loses k k') : k'.kMemoryMap ≠ k.kMemoryMap := by
  intro heq
  obtain ⟨i, hi, hfree, hbusy⟩ := h
  rw [heq] at hbusy
  exact hbusy hfree

/-- None of the functions gives back all the pages it took, on any of its exits. -/
theorem ext2_neverRestores [Layout] (ide : Ide δ) (dev : DeviceInfo) (priv : Ext2PrivData)
    (fuel : Nat) :
    (∀ inode inodeBuf, NeverRestores (ext2ReadInode ide dev priv inode inodeBuf)) ∧
    (∀ filename rootBuf,
      NeverRestores (ext2ReadRootDirectory ide dev priv fuel filename rootBuf)) ∧
    (∀ ff inodeBuf, NeverRestores (ext2FindFileInode ide dev priv fuel ff inodeBuf)) ∧
    ∀ sysCfg, NeverRestores (ext2Init ide dev fuel sysCfg) :=
  ⟨fun _ _ _ _ _ h => (ext2ReadInode_loses h).2.ne,
    fun _ _ _ _ _ h => (ext2ReadRootDirectory_loses h).2.ne,
    fun _ _ _ _ _ h => (ext2FindFileInode_loses h).ne,
    fun _ _ _ _ h => (ext2Init_loses h).ne⟩

/-- A superblock without the signature. -/
def unsignedVolume : Image := .ofBytes [(1028, 16), (1044, 1), (1056, 16), (1064, 16)]

/-- Runs that return, on a disk that answers every request and with all pages free: an
inode is read, `/a` is looked for, and a volume without the signature is refused. -/
theorem ext2_leaks : ∃ (_ : Layout) (priv : Ext2PrivData),
    Mounted ⟨0, 0, 0, 512⟩ 1 32 priv (volumeState twoBlockVolume [[97]]).dev ∧
    (∃ k', (ext2ReadInode Disk.ide ⟨0, 0, 0, 512⟩ priv 2 0x3000).run
        (volumeState twoBlockVolume [[97]]) = .ok () k' ∧
      k'.kMemoryMap ≠ (volumeState twoBlockVolume [[97]]).kMemoryMap) ∧
    (∃ r k', (ext2FindFileInode Disk.ide ⟨0, 0, 0, 512⟩ priv 0x1000 0x1000 0x3000).run
        (volumeState twoBlockVolume [[97]]) = .ok r k' ∧
      k'.kMemoryMap ≠ (volumeState twoBlockVolume [[97]]).kMemoryMap) ∧
    ∃ k', (ext2Init Disk.ide ⟨0, 0, 0, 512⟩ 0x1000 0x1000).run (mountState unsignedVolume) =
        .ok () k' ∧ k'.kMemoryMap ≠ (mountState unsignedVolume).kMemoryMap := by
  let _ := bootLayout
  obtain ⟨priv, hm⟩ := volumeState_mounted [[97]]
  have hpages : 9 ≤ freeCount (Kernel.zero ()).kMemoryMap := by simp
  refine ⟨bootLayout, priv, hm, ?_, ?_, ?_⟩
  · have hbuf : ∀ a, Span 0x3000 128 a →
        ¬ FreeAt (volumeState twoBlockVolume [[97]]).kMemoryMap a := by
      intro a ha
      rw [span_iff (by decide), show (0x3000 : UInt32).toNat = 0x3000 from rfl] at ha
      exact not_freeAt_low (by omega)
    obtain ⟨k', hrun, -⟩ := ext2ReadInode_ok hm.volume rfl .root (hm.inodeReadable .root)
      (show 2 ≤ freeCount (Kernel.zero ()).kMemoryMap by omega) hbuf
    exact ⟨k', hrun, (ext2ReadInode_loses hrun).2.ne⟩
  · have hp : IsPath [[97]] := ⟨by decide, by decide, by decide⟩
    have hroot : IsDirectory twoBlockVolume 2 := by decide
    have hlisted : lookupListed twoBlockVolume 2 [97] = none := by decide
    have hdepth : followDepth (lookupListed twoBlockVolume) 2 [[97]] = 0 :=
      followDepth_none hlisted
    obtain ⟨k', hrun⟩ := ext2FindFileInode_ok 0x3000 hm hp (volumeState_holdsPath hp)
      (show 0x1000 ≤ 0x1000 by decide) ⟨.inl hroot, fun _ _ => trivial⟩
      (show 5 + followDepth (lookupListed twoBlockVolume) 2 [[97]] ≤
        freeCount (Kernel.zero ()).kMemoryMap by rw [hdepth]; omega)
    exact ⟨_, k', hrun, (ext2FindFileInode_loses hrun).ne⟩
  · have hfill : fillPrivData (superblock unsignedVolume) =
        .ok ⟨superblock unsignedVolume, 2, 1, 1024, 2, 8⟩ := by decide
    have hmount := mountState_mounts unsignedVolume
    have hsig : le16 unsignedVolume (1024 + 56) ≠ 0xEF53 := by decide
    obtain ⟨s, t, k₁, -, -, -, -, hsb, -, -, hrun⟩ := ext2Init_checked
      (k := mountState unsignedVolume) 0x1000 0x1000
      hmount.holds.geometry
      (show 2 ≤ freeCount (Kernel.zero ()).kMemoryMap by omega)
      (Disk.delivers hmount.first) (Disk.delivers hmount.second) hfill
    have hreturn := hrun.trans
      (ext2InitChecked_invalid 0x1000 0x1000 (blockAddr t) _ hsb hsig)
    exact ⟨_, hreturn, (ext2Init_loses hreturn).ne⟩

end Bedrock
