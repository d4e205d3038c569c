import Bedrock.Proofs.BootCheck

/-!
# The inode in the buffer

What `ext2_find_file_inode` returns, beside what it leaves in `inode_buf`. The
function has four exits, and on each of them the two are settled separately: a
name that is not there returns 0 and copies nothing, behind the last name the
inode found is copied and its number cut to eight bits, an empty name that is
not there returns the inode before it (or 1 for `/`) and copies nothing, and a
string without a slash returns 0 and copies the beginning of a directory block.

Which exit is taken is said by the string and by the walk along its names; from
there on number and buffer agree by themselves, by the cut making no difference,
or by chance (`ext2FindFileInode_buffer_iff`).
-/

namespace Bedrock

open Lib Image

/-! ## What a call does -/

section

variable (c : Image) (l : List UInt8)

/-- The outcome of a call with `l`. -/
def outcome : Outcome :=
  if slash ∈ l then outcomeAt c l (searchEnd c l)
  else ⟨0, some (1024 * (stopBlock c l.tail).toNat)⟩

/-- How many free pages it takes to get there. -/
def pagesFor : Nat :=
  if slash ∈ l then 5 + (searchEnd c l).1.reads else 6

end

section

variable [Layout] {k : Kernel Disk} {rel sectors fuel : Nat} {dev : DeviceInfo}
  {priv : Ext2PrivData} {ff : UInt32} {l : List UInt8} (inodeBuf : UInt32)

theorem ext2FindFileInode_outcome (hm : Mounted dev rel sectors priv k.dev)
    (hends : RootEnds k.dev.content) (hff : HoldsString k ff l) (hfuel : 0x1000 ≤ fuel)
    (hpass : Explores k.dev.content l)
    (hfree : pagesFor k.dev.content l ≤ freeCount k.kMemoryMap) :
    ∃ k', (ext2FindFileInode Disk.ide dev priv fuel ff inodeBuf).run k =
        .ok (outcome k.dev.content l).value k' ∧
      ((∀ a, Span inodeBuf 128 a → ¬ FreeAt k.kMemoryMap a) →
        Receives k.dev.content k.mem k'.mem inodeBuf (outcome k.dev.content l).source) := by
  rw [pagesFor] at hfree
  rw [outcome]
  by_cases hslash : slash ∈ l
  · rw [if_pos hslash] at hfree ⊢
    exact ext2FindFileInode_search inodeBuf hm hff hslash hfuel hpass hfree
  · rw [if_neg hslash] at hfree ⊢
    exact ext2FindFileInode_inRoot inodeBuf hm hends hff hslash hfuel hfree

theorem ext2FindFileInode_tooFew (hm : Mounted dev rel sectors priv k.dev)
    (hff : HoldsString k ff l) (hfuel : 0x1000 ≤ fuel) (hpass : Explores k.dev.content l)
    (hfree : freeCount k.kMemoryMap < pagesFor k.dev.content l) :
    ∃ k', (ext2FindFileInode Disk.ide dev priv fuel ff inodeBuf).run k =
      .error (.exit 2) k' := by
  have hshort := hff.short
  rw [pagesFor] at hfree
  by_cases hslash : slash ∈ l
  · rw [if_pos hslash] at hfree
    exact ext2FindFileInode_searchExit inodeBuf hm hff hslash hfuel hpass hfree
  · rw [if_neg hslash] at hfree
    exact ext2FindFileInode_inRootExit inodeBuf hm hff hslash (by omega) hfree

end

/-! ## When they agree -/

section

variable (c : Image) (m : Mem) (inodeBuf : UInt32)

/-- With `r` returned, the buffer has the 128 bytes of inode `r`, or is unchanged for 0. -/
def BufferFits (m' : Mem) (r : UInt8) : Prop :=
  if r = 0 then ∀ a, Span inodeBuf 128 a → m' a = m a
  else Mirrors m' inodeBuf 128 c (inodeOff c r.toUInt32)

/-- The two parts of an outcome go together, from a memory `m`. -/
def Agrees (o : Outcome) : Prop :=
  match o.source with
  | some place =>
      if o.value = 0 then Mirrors m inodeBuf 128 c place
      else ∀ i < 128, c (place + i) = c (inodeOff c o.value.toUInt32 + i)
  | none => o.value = 0 ∨ Mirrors m inodeBuf 128 c (inodeOff c o.value.toUInt32)

/-- The buffer holds inode `n` already. -/
def HoldsInode (n : UInt32) : Prop := Mirrors m inodeBuf 128 c (inodeOff c n)

/-- Cut to eight bits, the number of inode `n` is that of an inode with the same bytes. Where
nothing is left of it, the buffer would have to hold the inode already. -/
def CutsTo (n : UInt32) : Prop :=
  if n.toUInt8 = 0 then HoldsInode c m inodeBuf n
  else ∀ i < 128, c (inodeOff c n + i) = c (inodeOff c n.toUInt8.toUInt32 + i)

/-- The condition on the string, the volume and the buffer before the call. -/
def BufferRight (l : List UInt8) : Prop :=
  if slash ∈ l then
    match searchEnd c l with
    -- every name leads on, and the last inode is copied
    | (s, []) => CutsTo c m inodeBuf s.inode
    -- an empty name is not there: the inode found before it is returned, and not copied
    | (s, [] :: _) =>
        if l = [slash] then HoldsInode c m inodeBuf 1
        else s.retnode.toUInt8 = 0 ∨ HoldsInode c m inodeBuf s.retnode.toUInt8.toUInt32
    -- another name is not there
    | (_, (_ :: _) :: _) => True
  -- a block of the root directory is copied, and 0 returned
  else Mirrors m inodeBuf 128 c (1024 * (stopBlock c l.tail).toNat)

variable {c m inodeBuf}

theorem mirrors_of_eq {m' : Mem} {place : Nat} (h : Mirrors m' inodeBuf 128 c place)
    (hsame : ∀ a, Span inodeBuf 128 a → m' a = m a) : Mirrors m inodeBuf 128 c place :=
  h.congr (by omega) fun a ha => (hsame a ha).symm

/-- What the buffer receives decides whether it fits. -/
theorem bufferFits_iff {m' : Mem} {o : Outcome} (h : Receives c m m' inodeBuf o.source) :
    BufferFits c m inodeBuf m' o.value ↔ Agrees c m inodeBuf o := by
  rw [BufferFits, Agrees]
  rcases o with ⟨v, source⟩
  cases source with
  | some place =>
      have hplace : Mirrors m' inodeBuf 128 c place := h
      by_cases hv : v = 0
      · simp only [if_pos hv]
        refine ⟨mirrors_of_eq hplace, fun hbefore a ha => ?_⟩
        obtain ⟨i, hi, rfl⟩ := ha.exists_offset
        rw [hplace i hi, hbefore i hi]
      · simp only [if_neg hv]
        constructor
        · exact fun hinode i hi => (hplace i hi).symm.trans (hinode i hi)
        · exact fun hbytes i hi => (hplace i hi).trans (hbytes i hi)
  | none =>
      have hsame : ∀ a, Span inodeBuf 128 a → m' a = m a := h
      by_cases hv : v = 0
      · simp only [if_pos hv]
        exact ⟨fun _ => .inl hv, fun _ => hsame⟩
      · simp only [if_neg hv]
        constructor
        · exact fun hinode => .inr (mirrors_of_eq hinode hsame)
        · exact fun hbefore => (hbefore.resolve_left hv).congr (by omega) hsame

/-- A search that got behind its last name returns the inode it has in its page. -/
theorem retnode_searchEnd {s : SearchState} {l : List UInt8} (hc : WellFormed c)
    (hslash : slash ∈ l) (hs : searchEnd c l = (s, [])) : s.retnode = s.inode := by
  have hkeep : ∀ (s : SearchState) (name : List UInt8) (t : SearchState),
      s.retnode = s.inode → searchStep c s name = some t → t.retnode = t.inode := by
    intro s name t heq hstep
    by_cases hblock : directBlock c s.inode 0 = 0
    · rw [searchStep_skip name hblock] at hstep
      injection hstep with hstep
      exact hstep ▸ heq
    · rw [searchStep, if_neg hblock] at hstep
      obtain ⟨n, -, rfl⟩ := Option.map_eq_some_iff.mp hstep
      rfl
  have hblock : directBlock c 2 0 ≠ 0 :=
    (scans_directory hc .root hc.root []).block
  obtain ⟨name, path, hnames⟩ : ∃ name path, searchNames l = name :: path :=
    List.exists_cons_of_length_pos
      (by rw [length_searchNames]; exact List.count_pos_iff.mpr hslash)
  rw [searchEnd, hnames] at hs
  cases hn : lookupListed c 2 name with
  | none =>
      rw [followTo_none (searchStep_missing (s := ⟨2, 0, 0⟩) hblock hn)] at hs
      cases hs
  | some n =>
      have hfrom := followTo_invariant (I := fun s : SearchState => s.retnode = s.inode) hkeep
        (s := ⟨n, n, 0 + 1⟩) rfl path
      rw [followTo_some (searchStep_found (s := ⟨2, 0, 0⟩) hblock hn)] at hs
      rw [hs] at hfrom
      exact hfrom

/-- The outcome of a call agrees under the condition. -/
theorem agrees_outcome_iff {l : List UInt8} (hc : WellFormed c) :
    Agrees c m inodeBuf (outcome c l) ↔ BufferRight c m inodeBuf l := by
  rw [outcome, BufferRight]
  by_cases hslash : slash ∈ l
  · rw [if_pos hslash, if_pos hslash]
    rcases hs : searchEnd c l with ⟨s, _ | ⟨_ | ⟨b, name⟩, rest⟩⟩
    · show Agrees c m inodeBuf ⟨s.retnode.toUInt8, some (inodeOff c s.inode)⟩ ↔ _
      rw [retnode_searchEnd hc hslash hs]
      exact Iff.rfl
    · show Agrees c m inodeBuf ⟨missingValue l s.retnode [], none⟩ ↔ _
      rw [missingValue, if_pos rfl]
      by_cases hroot : l = [slash]
      · simp only [if_pos hroot]
        exact or_iff_right (by decide)
      · simp only [if_neg hroot]
        exact Iff.rfl
    · show Agrees c m inodeBuf ⟨missingValue l s.retnode (b :: name), none⟩ ↔ _
      rw [missingValue, if_neg (List.cons_ne_nil b name)]
      exact iff_of_true (.inl rfl) trivial
  · rw [if_neg hslash, if_neg hslash]
    exact Iff.rfl

/-- A number of eight bits is not changed by the cut. -/
theorem cutsTo_of_lt {n : UInt32} (hpos : n ≠ 0) (hlt : n.toNat < 256) :
    CutsTo c m inodeBuf n := by
  have hcut := toUInt32_toUInt8_iff.mpr hlt
  have hne : n.toUInt8 ≠ 0 := fun h0 => hpos (by rw [← hcut, h0]; rfl)
  rw [CutsTo, if_neg hne, hcut]
  exact fun _ _ => rfl

end

section

variable [Layout] {k : Kernel Disk} {rel sectors fuel : Nat} {dev : DeviceInfo}
  {priv : Ext2PrivData} {ff inodeBuf : UInt32} {l : List UInt8}

/-- If a call returns, what it returns fits what is in the buffer. -/
def BufferAgrees (dev : DeviceInfo) (priv : Ext2PrivData) (fuel : Nat) (k : Kernel Disk)
    (ff inodeBuf : UInt32) : Prop :=
  ∀ r k', (ext2FindFileInode Disk.ide dev priv fuel ff inodeBuf).run k = .ok r k' →
    BufferFits k.dev.content k.mem inodeBuf k'.mem r

/-- As long as every file met on the way that has a first block is a directory or misses the
next name, number and buffer agree exactly if the pages do not last or the condition
holds. -/
theorem ext2FindFileInode_buffer_iff (hm : Mounted dev rel sectors priv k.dev)
    (hends : RootEnds k.dev.content) (hff : HoldsString k ff l)
    (hbuf : ∀ a, Span inodeBuf 128 a → ¬ FreeAt k.kMemoryMap a) (hfuel : 0x1000 ≤ fuel)
    (hpass : Explores k.dev.content l) :
    BufferAgrees dev priv fuel k ff inodeBuf ↔
      freeCount k.kMemoryMap < pagesFor k.dev.content l ∨
        BufferRight k.dev.content k.mem inodeBuf l := by
  rcases Nat.lt_or_ge (freeCount k.kMemoryMap) (pagesFor k.dev.content l) with hfew | hmany
  · refine iff_of_true (fun r k' hrun => ?_) (.inl hfew)
    obtain ⟨k₁, hexit⟩ := ext2FindFileInode_tooFew inodeBuf hm hff hfuel hpass hfew
    rw [hexit] at hrun
    cases hrun
  · obtain ⟨k₁, hok, hbytes⟩ :=
      ext2FindFileInode_outcome inodeBuf hm hends hff hfuel hpass hmany
    have hfits := (bufferFits_iff (hbytes hbuf)).trans (agrees_outcome_iff hm.image)
    rw [or_iff_right (Nat.not_lt.mpr hmany), ← hfits]
    constructor
    · exact fun hagrees => hagrees _ k₁ hok
    · intro hright r k' hrun
      rw [hok] at hrun
      injection hrun with hr hk
      subst hr hk
      exact hright

end

/-! ## Two strings -/

/-- A buffer at `0x3000` is in no free page. -/
theorem volumeState_apart [Layout] {c : Image} {path : List (List UInt8)} {a : UInt32}
    (ha : Span 0x3000 128 a) : ¬ FreeAt (volumeState c path).kMemoryMap a := by
  rw [span_iff (by decide), show (0x3000 : UInt32).toNat = 0x3000 from rfl] at ha
  exact not_freeAt_low (by omega)

/-- With `/a/b` the inode of `b` in the directory `a` is returned and copied. -/
theorem ext2FindFileInode_buffer_iff_nested : ∃ (_ : Layout) (priv : Ext2PrivData),
    Mounted ⟨0, 0, 0, 512⟩ 1 32 priv (volumeState nestedVolume [[97], [98]]).dev ∧
      outcome nestedVolume (pathString [[97], [98]]) =
        ⟨13, some (inodeOff nestedVolume 13)⟩ ∧
      BufferAgrees ⟨0, 0, 0, 512⟩ priv 0x1000 (volumeState nestedVolume [[97], [98]]) 0x1000
        0x3000 := by
  let _ := bootLayout
  have hends : RootEnds nestedVolume := by decide
  have hend : searchEnd nestedVolume (pathString [[97], [98]]) = (⟨13, 13, 2⟩, []) := by
    decide
  refine ⟨bootLayout, _, nestedVolume_mounted _, by decide,
    (ext2FindFileInode_buffer_iff (nestedVolume_mounted _) hends
      (volumeState_holdsString (by decide) (by decide)) (fun a ha => volumeState_apart ha)
      (by decide) nestedVolume_explores).mpr (.inr ?_)⟩
  show BufferRight nestedVolume _ 0x3000 (pathString [[97], [98]])
  rw [BufferRight, if_pos (by decide), hend]
  exact cutsTo_of_lt (by decide) (by decide)

/-- With `/./` the root's number is returned, and the buffer keeps its zeros. -/
theorem ext2FindFileInode_trailing_slash : ∃ (_ : Layout) (priv : Ext2PrivData),
    Mounted ⟨0, 0, 0, 512⟩ 1 32 priv (volumeState twoBlockVolume [[46], []]).dev ∧
      ¬ BufferAgrees ⟨0, 0, 0, 512⟩ priv 0x1000 (volumeState twoBlockVolume [[46], []]) 0x1000
        0x3000 := by
  let _ := bootLayout
  obtain ⟨priv, hm⟩ := volumeState_mounted [[46], []]
  have hends : RootEnds twoBlockVolume := by decide
  have hout : outcome twoBlockVolume (pathString [[46], []]) = ⟨2, none⟩ := by decide
  have hpages : pagesFor twoBlockVolume (pathString [[46], []]) ≤
      freeCount (Kernel.zero ()).kMemoryMap := by
    rw [freeCount_zero]
    decide
  have hroot : IsDirectory twoBlockVolume 2 := by decide
  have hdot : searchStep twoBlockVolume ⟨2, 0, 0⟩ [46] = some ⟨2, 2, 1⟩ := by decide
  have hnames : searchNames (pathString [[46], []]) = [[46], []] := by decide
  have hpass : Explores twoBlockVolume (pathString [[46], []]) := by
    rw [Explores, hnames]
    refine ⟨.inr (.inl hroot), fun t ht => ⟨?_, fun _ _ => trivial⟩⟩
    rw [hdot] at ht
    injection ht with ht
    subst ht
    exact .inr (.inl hroot)
  obtain ⟨k₁, hrun, hbytes⟩ := ext2FindFileInode_outcome 0x3000 hm hends
    (volumeState_holdsString (by decide) (by decide)) (show 0x1000 ≤ 0x1000 by decide) hpass
    hpages
  refine ⟨bootLayout, priv, hm, fun hagrees => ?_⟩
  have hfits := (bufferFits_iff (hbytes fun a ha => volumeState_apart ha)).mp (hagrees _ _ hrun)
  rw [show outcome (volumeState twoBlockVolume [[46], []]).dev.content _ = _ from hout] at hfits
  rcases hfits with hzero | hmirrors
  · exact absurd hzero (by decide)
  · have hbyte := hmirrors 1 (by decide)
    exact absurd hbyte (by decide)

end Bedrock
