import Bedrock.Lib.FirstWins
import Bedrock.Lib.Run
import Bedrock.Kernel.Vm

/-!
# What `map_page` keeps

A page directory and its tables, read as two partial maps: each region of
4 MiB has the flags of its directory entry, each page its table entry. Both
are maps in which the first writer wins, and `map_page` is an insertion into
both (`mapPage_step`). That gives the translation of every page after any
sequence of calls (`mapPage_translate`) and the permissions it grants
(`mapPage_permissions`).

The allocator is any program whose answer is a fresh page: it does not meet
the directory or a table in use, and nothing outside it changes.
-/

namespace Bedrock

open Lib

variable {δ : Type}

/-- What an address is looked up under: its region, and its place there. -/
def regionKey (va : UInt32) : Fin 1024 := ⟨pdIndex va, pdIndex_lt va⟩

def pageKey (va : UInt32) : Fin 1024 × Fin 1024 :=
  (regionKey va, ⟨ptIndex va, ptIndex_lt va⟩)

theorem pageKey_eq_iff {va wa : UInt32} :
    pageKey va = pageKey wa ↔ va >>> 12 = wa >>> 12 := by
  rw [samePage_iff, pageKey, pageKey, regionKey, regionKey, Prod.mk.injEq,
    Fin.mk.injEq, Fin.mk.injEq]

theorem regionKey_eq_iff {va wa : UInt32} :
    regionKey va = regionKey wa ↔ va >>> 22 = wa >>> 22 := by
  rw [regionKey, regionKey, Fin.mk.injEq, pdIndex, pdIndex, UInt32.toNat_inj]

/-- The kernel address of the table of a region. -/
def table (m : Mem) (dir : UInt32) (i : Fin 1024) : UInt32 :=
  tableOf (m.word dir i)

/-- The flags of the regions that have a table. -/
def regionFlags (m : Mem) (dir : UInt32) (i : Fin 1024) : Option UInt32 :=
  if Present (m.word dir i) then some (m.word dir i &&& 0xFFF) else none

/-- The entries of the pages that are mapped. -/
def pageEntries (m : Mem) (dir : UInt32) (x : Fin 1024 × Fin 1024) :
    Option UInt32 :=
  if Present (m.word dir x.1) ∧ Present (m.word (table m dir x.1) x.2) then
    some (m.word (table m dir x.1) x.2)
  else none

/-- A directory whose tables are page sized, pairwise apart and apart from it,
and whose words are either present or the mark for "not there". -/
structure Linked (dir : UInt32) (m : Mem) : Prop where
  present : ∀ i : Fin 1024, m.word dir i ≠ 2 → Present (m.word dir i)
  apart_dir : ∀ i : Fin 1024, m.word dir i ≠ 2 → ∀ a,
    Span (table m dir i) 0x1000 a → ¬ Span dir 0x1000 a
  apart : ∀ i j : Fin 1024, i ≠ j → m.word dir i ≠ 2 → m.word dir j ≠ 2 →
    ∀ a, Span (table m dir i) 0x1000 a → ¬ Span (table m dir j) 0x1000 a
  entries : ∀ i : Fin 1024, m.word dir i ≠ 2 → ∀ j : Fin 1024,
    m.word (table m dir i) j ≠ 2 → Present (m.word (table m dir i) j)

/-- A page that is free for a new table. -/
structure Fresh (dir : UInt32) (m : Mem) (p : UInt32) : Prop where
  aligned : p.toNat % 0x1000 = 0
  kernel : 0xC0000000 ≤ p.toNat
  apart_dir : ∀ a, Span p 0x1000 a → ¬ Span dir 0x1000 a
  apart : ∀ i : Fin 1024, m.word dir i ≠ 2 → ∀ a,
    Span p 0x1000 a → ¬ Span (table m dir i) 0x1000 a

/-! ## The three ways a call changes memory -/

/-- The words a call finds afterwards, from those it found before: the
directory entry of its region, and the table entry of its page. -/
structure Extends (dir : UInt32) (key : Fin 1024 × Fin 1024)
    (phys flags : UInt32) (m m' : Mem) : Prop where
  dir_other : ∀ i : Fin 1024, i ≠ key.1 → m'.word dir i = m.word dir i
  dir_old : m.word dir key.1 ≠ 2 → m'.word dir key.1 = m.word dir key.1
  dir_new : m.word dir key.1 = 2 → ∃ p, Fresh dir m p ∧
    m'.word dir key.1 = entryOf (kernelToPhysAddr p) flags ∧
    ∀ j : Fin 1024, j ≠ key.2 → m'.word p j = 2
  page : m'.word (table m' dir key.1) key.2 = entryOf phys flags
  other : ∀ (i : Fin 1024) (j : Fin 1024), m.word dir i ≠ 2 → (i, j) ≠ key →
    m'.word (table m dir i) j = m.word (table m dir i) j

section

variable {dir phys flags : UInt32} {key : Fin 1024 × Fin 1024} {m m' : Mem}

theorem extends_table (key : Fin 1024 × Fin 1024) (phys flags : UInt32) (hl : Linked dir m)
    (h : m.word dir key.1 ≠ 2) :
    Extends dir key phys flags m
      (m.setWord (table m dir key.1) key.2 (entryOf phys flags)) := by
  have hoff : SameOff (Span (table m dir key.1) 0x1000) m
      (m.setWord (table m dir key.1) key.2 (entryOf phys flags)) :=
    sameOff_setWord key.2.isLt (by omega)
  have hdir : ∀ i : Fin 1024,
      (m.setWord (table m dir key.1) key.2 (entryOf phys flags)).word dir i =
        m.word dir i := fun i =>
    hoff.word i.isLt (by omega) fun a ha ht => hl.apart_dir key.1 h a ht ha
  refine ⟨fun i _ => hdir i, fun _ => hdir key.1, fun h2 => absurd h2 h, ?_, ?_⟩
  · have htable : table (m.setWord (table m dir key.1) key.2 (entryOf phys flags))
        dir key.1 = table m dir key.1 := congrArg tableOf (hdir key.1)
    rw [htable, Mem.word_setWord_self]
  · intro i j hi hne
    by_cases hik : i = key.1
    · subst hik
      have hj : (j : Nat) ≠ key.2 := fun hj => hne (by rw [Fin.ext hj])
      exact Mem.word_setWord_ne hj (by omega) (by omega)
    · exact hoff.word j.isLt (by omega) (hl.apart i key.1 hik hi h)

theorem extends_new {m₁ : Mem} {p : UInt32} (key : Fin 1024 × Fin 1024)
    (phys flags : UInt32) (hl : Linked dir m)
    (h : m.word dir key.1 = 2) (hf : Fresh dir m p)
    (hm₁ : SameOff (Span p 0x1000) m m₁) :
    Extends dir key phys flags m
      ((withTable m₁ dir p key.1 flags).setWord p key.2 (entryOf phys flags)) := by
  have hdir_off : ∀ a, Span dir 0x1000 a → ¬ Span p 0x1000 a :=
    fun a ha hp => hf.apart_dir a hp ha
  have hpde : ((withTable m₁ dir p key.1 flags).setWord p key.2
      (entryOf phys flags)).word dir key.1 =
      entryOf (kernelToPhysAddr p) flags :=
    withTable_entry key.1.isLt key.2.isLt hf.apart_dir
  refine ⟨?_, fun h2 => absurd h h2, fun _ => ⟨p, hf, hpde, ?_⟩, ?_, ?_⟩
  · intro i hi
    have hne : (i : Nat) ≠ key.1 := fun hi' => hi (Fin.ext hi')
    rw [withTable_other key.1.isLt i.isLt key.2.isLt hne hf.apart_dir,
      hm₁.word i.isLt (by omega) hdir_off]
  · intro j hj
    have hne : (j : Nat) ≠ key.2 := fun hj' => hj (Fin.ext hj')
    rw [Mem.word_setWord_ne hne (by omega) (by omega),
      withTable_word key.1.isLt j.isLt hf.apart_dir]
  · rw [table, hpde, tableOf_entryOf hf.aligned, Mem.word_setWord_self]
  · intro i j hi hne
    have hp : ∀ a, Span (table m dir i) 0x1000 a → ¬ Span p 0x1000 a :=
      fun a ha hpa => hf.apart i hi a hpa ha
    rw [(sameOff_withTable key.1.isLt key.2.isLt).word j.isLt (by omega)
      (fun a ha h => h.elim (hp a ha) (hl.apart_dir i hi a ha)),
      hm₁.word j.isLt (by omega) hp]

/-! ## The insertion into both maps -/

/-- A region with a table afterwards had one before, or got a fresh one. -/
theorem Extends.region (he : Extends dir key phys flags m m') (i : Fin 1024) :
    m'.word dir i = m.word dir i ∧ (i = key.1 → m.word dir i ≠ 2) ∨
      i = key.1 ∧ m.word dir i = 2 ∧ ∃ p, Fresh dir m p ∧
        m'.word dir i = entryOf (kernelToPhysAddr p) flags ∧
        table m' dir i = p ∧ ∀ j : Fin 1024, j ≠ key.2 → m'.word p j = 2 := by
  by_cases hi : i = key.1
  · subst hi
    by_cases h2 : m.word dir key.1 = 2
    · obtain ⟨p, hf, hpde, hempty⟩ := he.dir_new h2
      refine .inr ⟨rfl, h2, p, hf, hpde, ?_, hempty⟩
      rw [table, hpde, tableOf_entryOf hf.aligned]
    · exact .inl ⟨he.dir_old h2, fun _ => h2⟩
  · exact .inl ⟨he.dir_other i hi, fun h => absurd h hi⟩

theorem Extends.linked (he : Extends dir key phys flags m m')
    (hl : Linked dir m) : Linked dir m' := by
  constructor
  · intro i hi
    rcases he.region i with ⟨heq, -⟩ | ⟨-, -, p, -, hpde, -⟩
    · rw [heq] at hi ⊢
      exact hl.present i hi
    · rw [hpde]
      exact present_entryOf _ _
  · intro i hi a ha
    rcases he.region i with ⟨heq, -⟩ | ⟨-, -, p, hf, -, htable, -⟩
    · rw [table, heq] at ha
      exact hl.apart_dir i (heq ▸ hi) a ha
    · rw [htable] at ha
      exact hf.apart_dir a ha
  · intro i j hij hi hj a ha hb
    rcases he.region i with ⟨heq, -⟩ | ⟨hik, -, p, hf, -, htable, -⟩
    · rw [table, heq] at ha
      rcases he.region j with ⟨heq', -⟩ | ⟨-, -, q, hf, -, htable, -⟩
      · rw [table, heq'] at hb
        exact hl.apart i j hij (heq ▸ hi) (heq' ▸ hj) a ha hb
      · rw [htable] at hb
        exact hf.apart i (heq ▸ hi) a hb ha
    · rw [htable] at ha
      rcases he.region j with ⟨heq', -⟩ | ⟨hjk, -⟩
      · rw [table, heq'] at hb
        exact hf.apart j (heq' ▸ hj) a ha hb
      · exact hij (hik.trans hjk.symm)
  · intro i hi j hj
    by_cases hkey : (i, j) = key
    · subst hkey
      rw [he.page]
      exact present_entryOf _ _
    · rcases he.region i with ⟨heq, -⟩ | ⟨hik, -, p, -, -, htable, hempty⟩
      · rw [table, heq, ← table, he.other i j (heq ▸ hi) hkey] at hj ⊢
        exact hl.entries i (heq ▸ hi) j hj
      · have hjk : j ≠ key.2 := fun h => hkey (by rw [hik, h])
        rw [htable, hempty j hjk] at hj
        exact absurd rfl hj

/-- In a linked directory a word is present unless it is the mark. -/
theorem Linked.present_iff (hl : Linked dir m) (i : Fin 1024) :
    Present (m.word dir i) ↔ m.word dir i ≠ 2 :=
  ⟨Present.ne_two, hl.present i⟩

theorem regionFlags_none {i : Fin 1024} (h : m.word dir i = 2) :
    regionFlags m dir i = none := by
  rw [regionFlags, h]
  exact if_neg not_present_two

theorem Extends.regionFlags (he : Extends dir key phys flags m m')
    (hl : Linked dir m) :
    regionFlags m' dir = insertNew (regionFlags m dir) key.1
      ((flags &&& 0xFFF) ||| 1) := by
  funext i
  rcases he.region i with ⟨heq, hold⟩ | ⟨hik, h2, p, hf, hpde, -⟩
  · have hsame : Bedrock.regionFlags m' dir i = Bedrock.regionFlags m dir i := by
      rw [Bedrock.regionFlags, Bedrock.regionFlags, heq]
    rw [hsame]
    by_cases hik : i = key.1
    · have hpres := hl.present i (hold hik)
      rw [← hik, insertNew_self, Bedrock.regionFlags, if_pos hpres, Option.some_or]
    · rw [insertNew_ne hik]
  · rw [← hik, insertNew_self, regionFlags_none h2, Option.none_or,
      Bedrock.regionFlags, hpde, if_pos (present_entryOf _ _),
      flags_entryOf (kernelToPhysAddr_aligned hf.aligned)]

theorem Extends.pageEntries (he : Extends dir key phys flags m m')
    (hl : Linked dir m) (hnew : pageEntries m dir key = none) :
    pageEntries m' dir = insertNew (pageEntries m dir) key
      (entryOf phys flags) := by
  funext x
  by_cases hx : x = key
  · have hpde : Present (m'.word dir key.1) := by
      rcases he.region key.1 with ⟨heq, hold⟩ | ⟨-, -, p, -, hpde, -⟩
      · rw [heq]
        exact hl.present key.1 (hold rfl)
      · rw [hpde]
        exact present_entryOf _ _
    rw [hx, insertNew_self, hnew, Option.none_or, Bedrock.pageEntries, he.page,
      if_pos ⟨hpde, present_entryOf _ _⟩]
  · rw [insertNew_ne hx]
    rcases he.region x.1 with ⟨heq, -⟩ | ⟨hik, h2, p, -, -, htable, hempty⟩
    · rw [Bedrock.pageEntries, Bedrock.pageEntries, table, heq, ← table]
      by_cases h2 : m.word dir x.1 = 2
      · rw [h2, if_neg fun h => not_present_two h.1,
          if_neg fun h => not_present_two h.1]
      · rw [he.other x.1 x.2 h2 hx]
    · have hj : x.2 ≠ key.2 := fun h => hx (Prod.ext hik h)
      rw [Bedrock.pageEntries, Bedrock.pageEntries, htable, hempty x.2 hj, h2,
        if_neg fun h => not_present_two h.2, if_neg fun h => not_present_two h.1]

end

/-! ## One call -/

/-- A call of `map_page` and what it returned. -/
structure MapCall where
  physaddr : UInt32
  virtualaddr : UInt32
  flags : UInt32
  result : Int32
deriving DecidableEq

/-- The call is for the page of `va`. -/
def MapCall.ForPage (c : MapCall) (va : UInt32) : Prop :=
  c.virtualaddr >>> 12 = va >>> 12

/-- The call is for the 4 MiB region of `va`. -/
def MapCall.ForRegion (c : MapCall) (va : UInt32) : Prop :=
  c.virtualaddr >>> 22 = va >>> 22

instance {c : MapCall} {va : UInt32} : Decidable (c.ForPage va) :=
  inferInstanceAs (Decidable (_ = _))

instance {c : MapCall} {va : UInt32} : Decidable (c.ForRegion va) :=
  inferInstanceAs (Decidable (_ = _))

def MapStep (alloc : Kern δ UInt32) (dir : UInt32) (k : Kernel δ) (c : MapCall)
    (k' : Kernel δ) : Prop :=
  (mapPageWith alloc dir c.physaddr c.virtualaddr c.flags).run k = .ok c.result k'

/-- The allocator's side of a call that needs a new table: it returns a fresh
page and changes no byte outside it. -/
def AllocGuard (alloc : Kern δ UInt32) (dir : UInt32) (k : Kernel δ)
    (c : MapCall) : Prop :=
  k.mem.word dir (pdIndex c.virtualaddr) = 2 →
    ∃ p k₁, alloc.run k = .ok p k₁ ∧ Fresh dir k.mem p ∧
      SameOff (Span p 0x1000) k.mem k₁.mem

section

variable {alloc : Kern δ UInt32} {dir : UInt32} {k k' : Kernel δ} {c : MapCall}

theorem pageEntries_mapped {va : UInt32} (hl : Linked dir k.mem)
    (hpde : k.mem.word dir (pdIndex va) ≠ 2)
    (hpte : k.mem.word (tableOf (k.mem.word dir (pdIndex va))) (ptIndex va) ≠ 2) :
    pageEntries k.mem dir (pageKey va) =
      some (k.mem.word (tableOf (k.mem.word dir (pdIndex va))) (ptIndex va)) :=
  if_pos ⟨hl.present (regionKey va) hpde,
    hl.entries (regionKey va) hpde (pageKey va).2 hpte⟩

/-- A region with a page has a table. -/
theorem word_of_pageEntries {m : Mem} {dir va : UInt32}
    (h : pageEntries m dir (pageKey va) ≠ none) : m.word dir (pdIndex va) ≠ 2 :=
  fun h2 => h (if_neg fun hp => hp.1.ne_two h2)

/-- A call returns, with 0 for a page that was not mapped and is now, with 1
for one that was and nothing is changed. -/
theorem mapPage_cases (hl : Linked dir k.mem) (hg : AllocGuard alloc dir k c) :
    ∃ r k', (mapPageWith alloc dir c.physaddr c.virtualaddr c.flags).run k =
        .ok r k' ∧
      (pageEntries k.mem dir (pageKey c.virtualaddr) = none ∧ r = 0 ∧
          Extends dir (pageKey c.virtualaddr) c.physaddr c.flags k.mem k'.mem ∨
        pageEntries k.mem dir (pageKey c.virtualaddr) ≠ none ∧ r = 1 ∧ k' = k) := by
  by_cases hpde : k.mem.word dir (pdIndex c.virtualaddr) = 2
  · obtain ⟨p, k₁, halloc, hf, hsame⟩ := hg hpde
    have hnone : pageEntries k.mem dir (pageKey c.virtualaddr) = none :=
      if_neg fun h => h.1.ne_two hpde
    exact ⟨0, _, mapPage_new_ok hpde halloc hf.apart_dir,
      .inl ⟨hnone, rfl, extends_new _ _ _ hl hpde hf hsame⟩⟩
  · by_cases hpte : k.mem.word (tableOf (k.mem.word dir (pdIndex c.virtualaddr)))
        (ptIndex c.virtualaddr) = 2
    · have hnone : pageEntries k.mem dir (pageKey c.virtualaddr) = none :=
        if_neg fun h => h.2.ne_two hpte
      exact ⟨0, _, mapPage_table hpde hpte, .inl ⟨hnone, rfl,
        extends_table (pageKey c.virtualaddr) _ _ hl hpde⟩⟩
    · refine ⟨1, k, mapPage_mapped hpde hpte, .inr ⟨?_, rfl, rfl⟩⟩
      rw [pageEntries_mapped hl hpde hpte]
      exact Option.some_ne_none _

theorem mapPage_step (hl : Linked dir k.mem) (hg : AllocGuard alloc dir k c)
    (hs : MapStep alloc dir k c k') :
    pageEntries k.mem dir (pageKey c.virtualaddr) = none ∧ c.result = 0 ∧
        Extends dir (pageKey c.virtualaddr) c.physaddr c.flags k.mem k'.mem ∨
      pageEntries k.mem dir (pageKey c.virtualaddr) ≠ none ∧ c.result = 1 ∧
        k' = k := by
  obtain ⟨r, k₁, hrun, hcases⟩ := mapPage_cases hl hg
  rw [MapStep, hrun] at hs
  injection hs with hr hk
  rw [← hr, ← hk]
  exact hcases

/-- What a call does to the map of pages. -/
theorem mapPage_inserts (hl : Linked dir k.mem)
    (hs : Guarded (MapStep alloc dir) (AllocGuard alloc dir) k c k') :
    Linked dir k'.mem ∧
      pageEntries k'.mem dir = insertNew (pageEntries k.mem dir)
        (pageKey c.virtualaddr) (entryOf c.physaddr c.flags) := by
  rcases mapPage_step hl hs.1 hs.2 with ⟨hnone, -, he⟩ | ⟨hsome, -, rfl⟩
  · exact ⟨he.linked hl, he.pageEntries hl hnone⟩
  · exact ⟨hl, (insertNew_some hsome).symm⟩

/-- What a call does to the map of regions: a page that is mapped lies in a
region that has its flags already. -/
theorem mapPage_inserts_region (hl : Linked dir k.mem)
    (hs : Guarded (MapStep alloc dir) (AllocGuard alloc dir) k c k') :
    Linked dir k'.mem ∧
      regionFlags k'.mem dir = insertNew (regionFlags k.mem dir)
        (regionKey c.virtualaddr) ((c.flags &&& 0xFFF) ||| 1) := by
  rcases mapPage_step hl hs.1 hs.2 with ⟨-, -, he⟩ | ⟨hsome, -, rfl⟩
  · exact ⟨he.linked hl, he.regionFlags hl⟩
  · refine ⟨hl, (insertNew_some ?_).symm⟩
    intro hnone
    apply hsome
    refine if_neg fun h => ?_
    have hpde : Present (k'.mem.word dir (regionKey c.virtualaddr)) := h.1
    rw [regionFlags, if_pos hpde] at hnone
    cases hnone

/-! ## Whole runs -/

/-- `clear_entries` leaves a directory without tables. -/
theorem clearEntries_word {k₀ : Kernel δ}
    (h : (clearEntries dir).run k₀ = .ok () k) (i : Fin 1024) :
    k.mem.word dir i = 2 := by
  injection h with _ hk
  rw [← hk]
  exact Mem.word_fillWords i.isLt (by omega)

theorem linked_clearEntries {k₀ : Kernel δ}
    (h : (clearEntries dir).run k₀ = .ok () k) : Linked dir k.mem :=
  ⟨fun i hi => absurd (clearEntries_word h i) hi,
    fun i hi => absurd (clearEntries_word h i) hi,
    fun i _ _ hi => absurd (clearEntries_word h i) hi,
    fun i hi => absurd (clearEntries_word h i) hi⟩

/-- After a run that starts with a cleared directory, each page has the entry
of the first call for it. -/
theorem pageEntries_run {k₀ k₁ : Kernel δ} {tr : List MapCall}
    (h₀ : (clearEntries dir).run k₀ = .ok () k₁)
    (hrun : Run (Guarded (MapStep alloc dir) (AllocGuard alloc dir)) k₁ tr k) :
    Linked dir k.mem ∧ ∀ va : UInt32, pageEntries k.mem dir (pageKey va) =
      (tr.find? fun c => c.ForPage va).map
        fun c => entryOf c.physaddr c.flags := by
  obtain ⟨hl, hfold⟩ := hrun.refines (fun k => Linked dir k.mem)
    (fun k => pageEntries k.mem dir)
    (fun f c => insertNew f (pageKey c.virtualaddr) (entryOf c.physaddr c.flags))
    (linked_clearEntries h₀) fun k c k' hl hs => mapPage_inserts hl hs
  refine ⟨hl, fun va => ?_⟩
  have hnone : pageEntries k₁.mem dir (pageKey va) = none :=
    if_neg fun h => h.1.ne_two (clearEntries_word h₀ _)
  rw [hfold, foldl_insertNew, hnone, Option.none_or]
  simp only [pageKey_eq_iff]
  rfl

theorem walk_eq (m : Mem) (dir va : UInt32) :
    walk m dir va = (pageEntries m dir (pageKey va)).map
      fun e => (m.word dir (pdIndex va), e) := by
  simp only [walk, pageEntries, pageKey, regionKey, table]
  by_cases hpde : Present (m.word dir (pdIndex va))
  · by_cases hpte : Present (m.word (tableOf (m.word dir (pdIndex va))) (ptIndex va))
    · simp [hpde, hpte]
    · simp [hpde, hpte]
  · simp [hpde]

theorem translate_eq (m : Mem) (dir va : UInt32) :
    translate m dir va = (pageEntries m dir (pageKey va)).map
      fun e => (stripVmFlags e, e &&& 0xFFF) := by
  rw [translate, walk_eq, Option.map_map]
  rfl

/-- `map_page` as a first-writer-wins map from pages to frames and flags. In
every sequence of calls on a cleared directory each page translates to the
frame and flags of the first call for it; a call returns 0 for a page that was
not mapped and 1 otherwise, and then changes nothing; no call changes another
page's translation. -/
theorem mapPage_translate {k₀ k₁ k : Kernel δ} {tr : List MapCall}
    (h₀ : (clearEntries dir).run k₀ = .ok () k₁)
    (hrun : Run (Guarded (MapStep alloc dir) (AllocGuard alloc dir)) k₁ tr k)
    (halign : ∀ c ∈ tr, c.physaddr.toNat % 0x1000 = 0) :
    (∀ va : UInt32, translate k.mem dir va =
      (tr.find? fun c => c.ForPage va).map
        fun c => (c.physaddr, (c.flags &&& 0xFFF) ||| 1)) ∧
    ∀ c : MapCall, AllocGuard alloc dir k c →
      (∃ r k', MapStep alloc dir k { c with result := r } k') ∧
      ∀ k', MapStep alloc dir k c k' →
        c.result = (if translate k.mem dir c.virtualaddr = none then 0 else 1) ∧
        (c.result = 1 → k' = k) ∧
        ∀ va : UInt32, ¬ c.ForPage va →
          translate k'.mem dir va = translate k.mem dir va := by
  obtain ⟨hl, hpages⟩ := pageEntries_run h₀ hrun
  refine ⟨fun va => ?_, fun c hg => ⟨?_, fun k' hs => ⟨?_, ?_, ?_⟩⟩⟩
  · rw [translate_eq, hpages va, Option.map_map]
    cases hfind : tr.find? fun c => c.ForPage va with
    | none => rfl
    | some c =>
        have hc := halign c (List.mem_of_find?_eq_some hfind)
        simp only [Option.map_some, Function.comp_apply, stripVmFlags_entryOf hc,
          flags_entryOf hc]
  · obtain ⟨r, k', hrun, -⟩ := mapPage_cases hl hg
    exact ⟨r, k', hrun⟩
  · simp only [translate_eq, Option.map_eq_none_iff]
    rcases mapPage_step hl hg hs with ⟨hnone, hr, -⟩ | ⟨hsome, hr, -⟩
    · rw [if_pos hnone, hr]
    · rw [if_neg hsome, hr]
  · intro hone
    rcases mapPage_step hl hg hs with ⟨-, hr, -⟩ | ⟨-, -, hk⟩
    · rw [hr] at hone
      exact absurd hone (by decide)
    · exact hk
  · intro va hva
    have hkey : pageKey va ≠ pageKey c.virtualaddr :=
      fun h => hva (pageKey_eq_iff.mp h.symm)
    rw [translate_eq, translate_eq, (mapPage_inserts hl ⟨hg, hs⟩).2,
      insertNew_ne hkey]

/-! ## Permissions -/

/-- The user bit and the write bit of an entry or of flags. -/
def userBit (entry : UInt32) : Bool := entry.toNat.testBit 2

def writeBit (entry : UInt32) : Bool := entry.toNat.testBit 1

/-- The access the processor grants: what both entries allow. -/
def granted (m : Mem) (dir va : UInt32) : Option (Bool × Bool) :=
  (walk m dir va).map fun e =>
    (userBit e.1 && userBit e.2, writeBit e.1 && writeBit e.2)

/-- The flags of a region after a run are those of the first call in it. -/
theorem regionFlags_run {k₀ k₁ : Kernel δ} {tr : List MapCall}
    (h₀ : (clearEntries dir).run k₀ = .ok () k₁)
    (hrun : Run (Guarded (MapStep alloc dir) (AllocGuard alloc dir)) k₁ tr k)
    (va : UInt32) :
    regionFlags k.mem dir (regionKey va) =
      (tr.find? fun c => c.ForRegion va).map
        fun c => (c.flags &&& 0xFFF) ||| 1 := by
  obtain ⟨-, hfold⟩ := hrun.refines (fun k => Linked dir k.mem)
    (fun k => regionFlags k.mem dir)
    (fun f c => insertNew f (regionKey c.virtualaddr) ((c.flags &&& 0xFFF) ||| 1))
    (linked_clearEntries h₀) fun k c k' hl hs => mapPage_inserts_region hl hs
  rw [hfold, foldl_insertNew, regionFlags_none (clearEntries_word h₀ _),
    Option.none_or]
  simp only [regionKey_eq_iff]
  rfl

/-- A successful call's entry stays. -/
theorem pageEntries_successful {k₀ k₁ : Kernel δ} {tr : List MapCall}
    (h₀ : (clearEntries dir).run k₀ = .ok () k₁)
    (hrun : Run (Guarded (MapStep alloc dir) (AllocGuard alloc dir)) k₁ tr k) :
    ∀ c ∈ tr, c.result = 0 → pageEntries k.mem dir (pageKey c.virtualaddr) =
      some (entryOf c.physaddr c.flags) := by
  refine (hrun.trace_invariant (I := fun tr k => Linked dir k.mem ∧
    ∀ c ∈ tr, c.result = 0 → pageEntries k.mem dir (pageKey c.virtualaddr) =
      some (entryOf c.physaddr c.flags)) ⟨linked_clearEntries h₀, ?_⟩ ?_).2
  · intro c hc
    cases hc
  · rintro tr k c k' ⟨hl, hpages⟩ hs
    obtain ⟨hl', hins⟩ := mapPage_inserts hl hs
    refine ⟨hl', fun d hd hr => ?_⟩
    rw [hins]
    rcases List.mem_append.mp hd with hold | hnew
    · by_cases hkey : pageKey d.virtualaddr = pageKey c.virtualaddr
      · rw [hkey, insertNew_self, ← hkey, hpages d hold hr, Option.some_or]
      · rw [insertNew_ne hkey, hpages d hold hr]
    · rw [List.mem_singleton] at hnew
      subst hnew
      rcases mapPage_step hl hs.1 hs.2 with ⟨hnone, -, -⟩ | ⟨-, hone, -⟩
      · rw [insertNew_self, hnone, Option.none_or]
      · rw [hr] at hone
        exact absurd hone (by decide)

/-- A bit above the lowest in the flags of an entry. -/
theorem testBit_flags (flags : UInt32) {i : Nat} (h0 : 0 < i) (h12 : i < 12) :
    ((flags &&& 0xFFF) ||| 1).toNat.testBit i = flags.toNat.testBit i := by
  have hbit := testBit_entryOf 0 flags i
  rw [entryOf, UInt32.zero_or] at hbit
  rw [hbit, decide_eq_true h12, decide_eq_false (by omega)]
  simp

/-- What the walk grants a page that a successful call mapped: the region's
part is decided by the first call in the region. -/
theorem granted_run {k₀ k₁ : Kernel δ} {tr : List MapCall} {d : MapCall}
    (h₀ : (clearEntries dir).run k₀ = .ok () k₁)
    (hrun : Run (Guarded (MapStep alloc dir) (AllocGuard alloc dir)) k₁ tr k)
    (hc : c ∈ tr) (hr : c.result = 0)
    (hd : (tr.find? fun d => d.ForRegion c.virtualaddr) = some d) :
    granted k.mem dir c.virtualaddr =
      some (userBit d.flags && (userBit c.physaddr || userBit c.flags),
        writeBit d.flags && (writeBit c.physaddr || writeBit c.flags)) := by
  have hpage := pageEntries_successful h₀ hrun c hc hr
  have hregion := regionFlags_run h₀ hrun c.virtualaddr
  rw [hd, Option.map_some, regionFlags] at hregion
  have hpde : k.mem.word dir (pdIndex c.virtualaddr) &&& 0xFFF =
      (d.flags &&& 0xFFF) ||| 1 := by
    split at hregion
    · exact Option.some.inj hregion
    · cases hregion
  have hbit : ∀ i, 0 < i → i < 12 →
      (k.mem.word dir (pdIndex c.virtualaddr)).toNat.testBit i =
        d.flags.toNat.testBit i := by
    intro i h0 h12
    rw [← testBit_flags d.flags h0 h12, ← hpde, UInt32.toNat_and, Nat.testBit_and,
      show (0xFFF : UInt32).toNat = 2 ^ 12 - 1 from rfl,
      Nat.testBit_two_pow_sub_one, decide_eq_true h12, Bool.and_true]
  rw [granted, walk_eq, hpage, Option.map_some, Option.map_some]
  simp only [userBit, writeBit, hbit 2 (by omega) (by omega),
    hbit 1 (by omega) (by omega), testBit_entryOf]
  simp

/-- For one permission bit: the page asks for no more than the first page of
its region did, and its address does not add what the page did not ask for. -/
def BitCovered (bit : UInt32 → Bool) (first c : MapCall) : Prop :=
  (bit c.flags → bit first.flags) ∧
    (bit first.flags → bit c.physaddr → bit c.flags)

instance {bit : UInt32 → Bool} {first c : MapCall} :
    Decidable (BitCovered bit first c) :=
  inferInstanceAs (Decidable (_ ∧ _))

theorem bitCovered_iff {bit : UInt32 → Bool} {first c : MapCall} :
    (bit first.flags && (bit c.physaddr || bit c.flags)) = bit c.flags ↔
      BitCovered bit first c := by
  rw [BitCovered]
  cases bit first.flags <;> cases bit c.physaddr <;> cases bit c.flags <;> simp

end

/-! ## The kernel's own allocator -/

section

variable [Layout] {k k' : Kernel δ}

/-- A page of the allocator does not meet the kernel's directory. -/
theorem block_off_directory {i : Nat} (hi : i < kMemoryMapEntries) {a : UInt32}
    (ha : Span (blockAddr i) 0x1000 a) :
    ¬ Span Layout.kernelPageDirectory 0x1000 a := by
  have hbase := toNat_blockAddr (Nat.le_of_lt hi)
  have hfits := Layout.kmallocMemory_fits
  have hdir := Layout.kernelPageDirectory_fits
  have hapart := Layout.kernelPageDirectory_apart
  simp only [kMemoryMapEntries] at hi hfits hapart
  rw [span_iff (by omega)] at ha ⊢
  omega

theorem blockAddr_aligned {i : Nat} (hi : i < kMemoryMapEntries) :
    (blockAddr i).toNat % 0x1000 = 0 ∧ 0xC0000000 ≤ (blockAddr i).toNat := by
  have hbase := toNat_blockAddr (Nat.le_of_lt hi)
  have haligned := Layout.kmallocMemory_aligned
  have hkernel := Layout.kmallocMemory_kernel
  omega

/-- The directory meets no free page. -/
def OffFree (dir : UInt32) (map : Vector UInt8 kMemoryMapEntries) : Prop :=
  ∀ i (hi : i < kMemoryMapEntries), map[i] = 0 →
    ∀ a, Span (blockAddr i) 0x1000 a → ¬ Span dir 0x1000 a

/-- The kernel's own directory meets no page of the allocator at all. -/
theorem offFree_kernelPageDirectory {map : Vector UInt8 kMemoryMapEntries} :
    OffFree Layout.kernelPageDirectory map :=
  fun _ hi _ _ => block_off_directory hi

/-- What a run of `map_page` with `kmalloc` keeps: its tables are marked
blocks of the allocator. -/
structure Tabled (dir : UInt32) (k : Kernel δ) : Prop where
  linked : Linked dir k.mem
  off : OffFree dir k.kMemoryMap
  marked : ∀ i : Fin 1024, k.mem.word dir i ≠ 2 →
    ∃ b, ∃ hb : b < kMemoryMapEntries, table k.mem dir i = blockAddr b ∧
      k.kMemoryMap[b] ≠ 0

/-- While its tables are marked, the page `kmalloc` delivers is fresh. -/
theorem Tabled.fresh {dir : UInt32} (ht : Tabled dir k)
    (hfree : 0 < freeCount k.kMemoryMap) :
    Fresh dir k.mem (blockAddr (firstFree k.kMemoryMap)) := by
  have hlt := firstFree_lt hfree
  have hzero := firstFree_free hlt
  obtain ⟨haligned, hkernel⟩ := blockAddr_aligned hlt
  refine ⟨haligned, hkernel, ht.off _ hlt hzero, fun i hi a ha hta => ?_⟩
  obtain ⟨b, hb, htable, hmark⟩ := ht.marked i hi
  rw [htable] at hta
  have hsame := block_disjoint hlt hb ha hta
  subst hsame
  exact hmark hzero

theorem Tabled.guard {dir : UInt32} {c : MapCall} (ht : Tabled dir k)
    (hfree : k.mem.word dir (pdIndex c.virtualaddr) = 2 → 0 < freeCount k.kMemoryMap) :
    AllocGuard (kmalloc 1) dir k c := by
  intro h2
  have hsame : SameOff (Span (blockAddr (firstFree k.kMemoryMap)) 0x1000) k.mem
      (k.mem.write (blockAddr (firstFree k.kMemoryMap)) 0x1000 fun _ => 0) :=
    sameOff_write
  exact ⟨_, _, kmalloc_ok (n := 1) (by decide) (hfree h2), ht.fresh (hfree h2), hsame⟩

/-- A call in a region that has a table leaves the marks alone. -/
theorem Tabled.step_old {dir : UInt32} {c : MapCall} (ht : Tabled dir k)
    (hpde : k.mem.word dir (pdIndex c.virtualaddr) ≠ 2)
    (hs : MapStep (kmalloc 1) dir k c k') : Tabled dir k' := by
  have hmap := mapPage_kMemoryMap hpde hs
  rcases mapPage_step ht.linked (fun h => absurd h hpde) hs with
    ⟨-, -, he⟩ | ⟨-, -, rfl⟩
  · refine ⟨he.linked ht.linked, hmap ▸ ht.off, fun i hi => ?_⟩
    rcases he.region i with ⟨heq, -⟩ | ⟨hik, h2, -⟩
    · rw [heq] at hi
      rw [table, heq, hmap]
      exact ht.marked i hi
    · rw [hik] at h2
      exact absurd h2 hpde
  · exact ht

/-- A call that needs a table takes a fresh page and marks it. -/
theorem Tabled.step_new {dir : UInt32} {c : MapCall} (ht : Tabled dir k)
    (hpde : k.mem.word dir (pdIndex c.virtualaddr) = 2)
    (hfree : 0 < freeCount k.kMemoryMap)
    (hs : MapStep (kmalloc 1) dir k c k') :
    AllocGuard (kmalloc 1) dir k c ∧ Tabled dir k' := by
  have hlt := firstFree_lt hfree
  have hf := ht.fresh hfree
  have hkmalloc := kmalloc_ok (k := k) (n := 1) (by decide) hfree
  have hsame : SameOff (Span (blockAddr (firstFree k.kMemoryMap)) 0x1000) k.mem
      (k.mem.write (blockAddr (firstFree k.kMemoryMap)) 0x1000 fun _ => 0) :=
    sameOff_write
  have he := extends_new (pageKey c.virtualaddr) c.physaddr c.flags ht.linked
    hpde hf hsame
  rw [MapStep, mapPage_new_ok hpde hkmalloc hf.apart_dir] at hs
  injection hs with _ hk
  subst hk
  refine ⟨ht.guard fun _ => hfree, he.linked ht.linked, ?_, ?_⟩
  · intro i hi hzero
    simp only [getElem_mapRange] at hzero
    split at hzero
    · exact absurd hzero (by decide)
    · exact ht.off i hi hzero
  · intro i hi
    by_cases hik : i = regionKey c.virtualaddr
    · subst hik
      refine ⟨_, hlt, ?_, ?_⟩
      · refine (congrArg tableOf (withTable_entry (pdIndex_lt c.virtualaddr)
          (ptIndex_lt c.virtualaddr) hf.apart_dir)).trans ?_
        exact tableOf_entryOf hf.aligned _
      · rw [getElem_mapRange, if_pos ⟨Nat.le_refl _, Nat.lt_succ_self _⟩]
        decide
    · have hword := he.dir_other i hik
      obtain ⟨b, hb, htable, hmark⟩ := ht.marked i fun h => hi (hword.trans h)
      refine ⟨b, hb, ?_, ?_⟩
      · exact (congrArg tableOf hword).trans htable
      · rw [getElem_mapRange]
        split
        · decide
        · exact hmark

/-- A call with `kmalloc` meets the guard, and its tables stay marked. -/
theorem Tabled.step {dir : UInt32} {c : MapCall} (ht : Tabled dir k)
    (hs : MapStep (kmalloc 1) dir k c k') :
    AllocGuard (kmalloc 1) dir k c ∧ Tabled dir k' := by
  by_cases hpde : k.mem.word dir (pdIndex c.virtualaddr) = 2
  · rcases Nat.eq_zero_or_pos (freeCount k.kMemoryMap) with hnone | hfree
    · -- `kmalloc` would have stopped the kernel
      obtain ⟨k₁, hk₁, -⟩ := kmalloc_exit (k := k) (n := 1) (by decide)
        (by rw [hnone]; decide)
      rw [MapStep, mapPage_stops hpde hk₁] at hs
      cases hs
    · exact ht.step_new hpde hfree hs
  · exact ⟨fun h => absurd h hpde, ht.step_old hpde hs⟩

theorem tabled_clearEntries {dir : UInt32} {k₀ : Kernel δ}
    (h₀ : (clearEntries dir).run k₀ = .ok () k) (hoff : OffFree dir k.kMemoryMap) :
    Tabled dir k :=
  ⟨linked_clearEntries h₀, hoff, fun i hi => absurd (clearEntries_word h₀ i) hi⟩

/-- In a run of `map_page` that starts without tables the kernel's allocator
is as it should be. -/
theorem guarded_kmalloc {dir : UInt32} {k₀ k₁ : Kernel δ} {tr : List MapCall}
    (h₀ : (clearEntries dir).run k₀ = .ok () k₁)
    (hoff : OffFree dir k₁.kMemoryMap)
    (hrun : Run (MapStep (kmalloc 1) dir) k₁ tr k) :
    Run (Guarded (MapStep (kmalloc 1) dir) (AllocGuard (kmalloc 1) dir)) k₁ tr k :=
  (hrun.guarded (I := Tabled dir) (tabled_clearEntries h₀ hoff)
    fun _ _ _ ht hs => ht.step hs).1

/-- In every sequence of calls on a cleared directory, every page a call has
mapped is granted exactly the access its flags asked for, if and only if both
bits of every such call are covered by the first call in its region. -/
theorem mapPage_permissions {k₀ k₁ k : Kernel δ} {dir : UInt32}
    {tr : List MapCall} (h₀ : (clearEntries dir).run k₀ = .ok () k₁)
    (hoff : OffFree dir k₁.kMemoryMap)
    (hrun : Run (MapStep (kmalloc 1) dir) k₁ tr k) :
    (∀ c ∈ tr, c.result = 0 → granted k.mem dir c.virtualaddr =
        some (userBit c.flags, writeBit c.flags)) ↔
      ∀ c ∈ tr, c.result = 0 → ∀ d,
        (tr.find? fun d => d.ForRegion c.virtualaddr) = some d →
        BitCovered userBit d c ∧ BitCovered writeBit d c := by
  have hrun := guarded_kmalloc h₀ hoff hrun
  constructor
  · intro h c hc hr d hd
    have hgranted := h c hc hr
    rw [granted_run h₀ hrun hc hr hd] at hgranted
    injection hgranted with hpair
    rw [Prod.mk.injEq] at hpair
    exact ⟨bitCovered_iff.mp hpair.1, bitCovered_iff.mp hpair.2⟩
  · intro h c hc hr
    have hfirst : (tr.find? fun d => d.ForRegion c.virtualaddr).isSome :=
      List.find?_isSome.mpr ⟨c, hc, decide_eq_true rfl⟩
    obtain ⟨d, hd⟩ := Option.isSome_iff_exists.mp hfirst
    obtain ⟨huser, hwrite⟩ := h c hc hr d hd
    rw [granted_run h₀ hrun hc hr hd, bitCovered_iff.mpr huser,
      bitCovered_iff.mpr hwrite]

/-- A call that finds a table, or a page for one, is a step. -/
theorem Tabled.exists_step {dir : UInt32} {c : MapCall} (ht : Tabled dir k)
    (hfree : k.mem.word dir (pdIndex c.virtualaddr) = 2 → 0 < freeCount k.kMemoryMap)
    (hr : c.result = if pageEntries k.mem dir (pageKey c.virtualaddr) = none then 0 else 1) :
    ∃ k', MapStep (kmalloc 1) dir k c k' ∧ Tabled dir k' ∧
      pageEntries k'.mem dir = insertNew (pageEntries k.mem dir)
        (pageKey c.virtualaddr) (entryOf c.physaddr c.flags) := by
  have hg : AllocGuard (kmalloc 1) dir k c := ht.guard hfree
  obtain ⟨r, k', hrun, hcases⟩ := mapPage_cases ht.linked hg
  have hresult : r = c.result := by
    rw [hr]
    rcases hcases with ⟨hnone, hr, -⟩ | ⟨hsome, hr, -⟩
    · rw [if_pos hnone, hr]
    · rw [if_neg hsome, hr]
  rw [hresult] at hrun
  exact ⟨k', hrun, (ht.step hrun).2, (mapPage_inserts ht.linked ⟨hg, hrun⟩).2⟩

/-- Two pages of one region, mapped in the kernel's directory. -/
theorem exists_two_pages {k₀ : Kernel δ} (f₁ f₂ : UInt32)
    (h₀ : (clearEntries Layout.kernelPageDirectory).run k₀ = .ok () k)
    (hfree : 0 < freeCount k.kMemoryMap) :
    ∃ k', Run (MapStep (kmalloc 1) Layout.kernelPageDirectory) k
        [⟨0x5000, 0x400000, f₁, 0⟩, ⟨0x6000, 0x401000, f₂, 0⟩] k' ∧
      Tabled Layout.kernelPageDirectory k' ∧
      pageEntries k'.mem Layout.kernelPageDirectory (pageKey 0x400000) ≠ none := by
  have hempty : ∀ x, pageEntries k.mem Layout.kernelPageDirectory x = none :=
    fun x => if_neg fun h => h.1.ne_two (clearEntries_word h₀ _)
  have hother : pageKey 0x401000 ≠ pageKey 0x400000 := by decide
  have hregion : pdIndex 0x401000 = pdIndex 0x400000 := by decide
  obtain ⟨k₁, hs₁, ht₁, he₁⟩ := (tabled_clearEntries h₀ offFree_kernelPageDirectory).exists_step
    (c := ⟨0x5000, 0x400000, f₁, 0⟩) (fun _ => hfree) (if_pos (hempty _)).symm
  have hfirst : pageEntries k₁.mem Layout.kernelPageDirectory (pageKey 0x400000) ≠ none := by
    rw [he₁, insertNew_self, hempty, Option.none_or]
    exact Option.some_ne_none _
  have hsecond : pageEntries k₁.mem Layout.kernelPageDirectory (pageKey 0x401000) = none := by
    rw [he₁, insertNew_ne hother, hempty]
  obtain ⟨k₂, hs₂, ht₂, he₂⟩ := ht₁.exists_step (c := ⟨0x6000, 0x401000, f₂, 0⟩)
    (fun h2 => absurd (hregion ▸ h2) (word_of_pageEntries hfirst)) (if_pos hsecond).symm
  refine ⟨k₂, (Run.single hs₁).snoc hs₂, ht₂, ?_⟩
  rw [he₂, insertNew_ne hother.symm]
  exact hfirst

/-- And the first one once more: it stays as it is. -/
theorem exists_second_writer {k₀ : Kernel δ} (f₁ f₂ f₃ : UInt32)
    (h₀ : (clearEntries Layout.kernelPageDirectory).run k₀ = .ok () k)
    (hfree : 0 < freeCount k.kMemoryMap) :
    ∃ k', Run (MapStep (kmalloc 1) Layout.kernelPageDirectory) k
      [⟨0x5000, 0x400000, f₁, 0⟩, ⟨0x6000, 0x401000, f₂, 0⟩, ⟨0x7000, 0x400000, f₃, 1⟩] k' := by
  obtain ⟨k₂, hrun, ht, hmapped⟩ := exists_two_pages f₁ f₂ h₀ hfree
  obtain ⟨k₃, hs, -⟩ := ht.exists_step (c := ⟨0x7000, 0x400000, f₃, 1⟩)
    (fun h2 => absurd h2 (word_of_pageEntries hmapped)) (if_neg hmapped).symm
  exact ⟨k₃, hrun.snoc hs⟩

end

/-- Two pages and a second call for the first of them, which changes nothing. -/
theorem mapPage_translate_second_writer : ∃ (_ : Layout) (k₁ k : Kernel Unit),
    Run (MapStep (kmalloc 1) Layout.kernelPageDirectory) k₁
      [⟨0x5000, 0x400000, 3, 0⟩, ⟨0x6000, 0x401000, 7, 0⟩, ⟨0x7000, 0x400000, 7, 1⟩] k ∧
    translate k.mem Layout.kernelPageDirectory 0x400123 = some (0x5000, 3) ∧
    translate k.mem Layout.kernelPageDirectory 0x401FFF = some (0x6000, 7) ∧
    translate k.mem Layout.kernelPageDirectory 0x402000 = none := by
  let _ := bootLayout
  have h₀ : (clearEntries Layout.kernelPageDirectory).run (Kernel.zero ()) = .ok () _ := rfl
  obtain ⟨k, hrun⟩ := exists_second_writer 3 7 7 h₀ (freeCount_zero () ▸ by decide)
  have htranslate := (mapPage_translate h₀
    (guarded_kmalloc h₀ offFree_kernelPageDirectory hrun) (by decide)).1
  exact ⟨bootLayout, _, k, hrun, htranslate 0x400123, htranslate 0x401FFF, htranslate 0x402000⟩

/-- A user page, and in its region a page that is the supervisor's alone and read-only. -/
theorem mapPage_permissions_two_pages : ∃ (_ : Layout) (k₁ k : Kernel Unit),
    Run (MapStep (kmalloc 1) Layout.kernelPageDirectory) k₁
      [⟨0x5000, 0x400000, 7, 0⟩, ⟨0x6000, 0x401000, 1, 0⟩, ⟨0x7000, 0x400000, 1, 1⟩] k ∧
    granted k.mem Layout.kernelPageDirectory 0x400000 = some (true, true) ∧
    granted k.mem Layout.kernelPageDirectory 0x401000 = some (false, false) := by
  let _ := bootLayout
  have h₀ : (clearEntries Layout.kernelPageDirectory).run (Kernel.zero ()) = .ok () _ := rfl
  obtain ⟨k, hrun⟩ := exists_second_writer 7 1 1 h₀ (freeCount_zero () ▸ by decide)
  have hgranted := (mapPage_permissions h₀ offFree_kernelPageDirectory hrun).mpr (by decide)
  exact ⟨bootLayout, _, k, hrun, hgranted ⟨0x5000, 0x400000, 7, 0⟩ (by decide) rfl,
    hgranted ⟨0x6000, 0x401000, 1, 0⟩ (by decide) rfl⟩

/-- A supervisor page and then a user page in one region: both calls succeed,
and the user page is not accessible to the user. -/
theorem mapPage_user_after_supervisor : ∃ (_ : Layout) (k₁ k : Kernel Unit)
    (tr : List MapCall),
    (clearEntries Layout.kernelPageDirectory).run (Kernel.zero ()) = .ok () k₁ ∧
      Run (MapStep (kmalloc 1) Layout.kernelPageDirectory) k₁ tr k ∧
      (∀ c ∈ tr, c.result = 0 ∧ c.physaddr.toNat % 0x1000 = 0) ∧
      ¬ ∀ c ∈ tr, granted k.mem Layout.kernelPageDirectory c.virtualaddr =
        some (userBit c.flags, writeBit c.flags) := by
  let _ := bootLayout
  have h₀ : (clearEntries Layout.kernelPageDirectory).run (Kernel.zero ()) =
    .ok () _ := rfl
  obtain ⟨k, hrun, -⟩ := exists_two_pages 3 7 h₀ (freeCount_zero () ▸ by decide)
  refine ⟨bootLayout, _, k, _, h₀, hrun, by decide, fun hall => ?_⟩
  have hlast := hall ⟨0x6000, 0x401000, 7, 0⟩ (by decide)
  rw [granted_run h₀ (guarded_kmalloc h₀ offFree_kernelPageDirectory hrun) (by decide) rfl rfl]
    at hlast
  exact absurd hlast (by decide)

end Bedrock
