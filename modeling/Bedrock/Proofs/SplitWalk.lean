import Bedrock.Proofs.Ext2Search

/-!
# Walking along a split string

`strsplit` replaces the delimiters in place and only counts. The walk that
`ext2_find_file_inode` makes afterwards is driven by the lengths of the strings it
finds (`nameWalk`). Together they enumerate the segments between the delimiters,
empty ones included, and end behind the old terminator.
-/

namespace Bedrock

open Lib

/-! ## Segments -/

section

variable {d : UInt8} {l : List UInt8}

/-- Splitting a longer string: a delimiter opens a new segment, and any other
character joins the first one. -/
theorem splitOn_cons (d b : UInt8) (l : List UInt8) :
    ∃ name names, l.splitOn d = name :: names ∧
      (b :: l).splitOn d = if b = d then [] :: name :: names else (b :: name) :: names := by
  cases hsplit : l.splitOn d with
  | nil => exact absurd hsplit (List.splitOn_ne_nil d l)
  | cons name names =>
      refine ⟨name, names, rfl, ?_⟩
      rw [List.splitOn_cons_eq_if_modifyHead, hsplit, List.modifyHead_cons]
      simp only [beq_iff_eq]

theorem length_splitOn (d : UInt8) (l : List UInt8) :
    (l.splitOn d).length = l.count d + 1 := by
  induction l with
  | nil => rfl
  | cons b l ih =>
      obtain ⟨name, names, hsplit, hcons⟩ := splitOn_cons d b l
      rw [hsplit, List.length_cons] at ih
      rw [hcons, List.count_cons]
      by_cases hb : b = d
      · rw [if_pos hb, if_pos (beq_iff_eq.mpr hb), List.length_cons, List.length_cons, ih]
      · rw [if_neg hb, if_neg (mt beq_iff_eq.mp hb), List.length_cons, ih, Nat.add_zero]

/-- The segments have no delimiter and consist of characters of the string. -/
theorem mem_splitOn {name : List UInt8} (hname : name ∈ l.splitOn d) :
    d ∉ name ∧ ∀ b ∈ name, b ∈ l := by
  induction l generalizing name with
  | nil =>
      rw [List.splitOn_nil, List.mem_singleton] at hname
      subst hname
      exact ⟨List.not_mem_nil, fun b hb => absurd hb List.not_mem_nil⟩
  | cons b l ih =>
      obtain ⟨first, names, hsplit, hcons⟩ := splitOn_cons d b l
      rw [hsplit] at ih
      have hlift : ∀ {s : List UInt8}, s ∈ first :: names → d ∉ s ∧ ∀ c ∈ s, c ∈ b :: l :=
        fun hs => ⟨(ih hs).1, fun c hc => List.mem_cons_of_mem _ ((ih hs).2 c hc)⟩
      rw [hcons] at hname
      by_cases hb : b = d
      · rw [if_pos hb] at hname
        rcases List.mem_cons.mp hname with rfl | hin
        · exact ⟨List.not_mem_nil, fun c hc => absurd hc List.not_mem_nil⟩
        · exact hlift hin
      · rw [if_neg hb] at hname
        rcases List.mem_cons.mp hname with rfl | hin
        · obtain ⟨hfree, hsub⟩ := hlift List.mem_cons_self
          refine ⟨fun hd => ?_, fun c hc => ?_⟩
          · rcases List.mem_cons.mp hd with heq | hrest
            · exact hb heq.symm
            · exact hfree hrest
          · rcases List.mem_cons.mp hc with rfl | hrest
            · exact List.mem_cons_self
            · exact hsub c hrest
        · exact hlift (List.mem_cons_of_mem _ hin)

/-- With NULs for the delimiters, the string and its terminator are the segments, one
terminated string after the other. -/
theorem map_splitOn (d : UInt8) (l : List UInt8) :
    (l.map fun b => if b = d then 0 else b) ++ [0] = nameStrings (l.splitOn d) := by
  induction l with
  | nil => rfl
  | cons b l ih =>
      obtain ⟨name, names, hsplit, hcons⟩ := splitOn_cons d b l
      rw [hsplit] at ih
      rw [List.map_cons, List.cons_append, ih, hcons]
      by_cases hb : b = d
      · rw [if_pos hb, if_pos hb]
        rfl
      · rw [if_neg hb, if_neg hb]
        rfl

end

/-! ## The walk -/

variable {δ : Type} {k : Kernel δ} {m : Mem} {p : UInt32} {fuel : Nat}

/-- `n` steps of the walk of `ext2_find_file_inode` from `p` on: the strings met, and the
address it ends at. -/
def nameWalk (fuel : Nat) : (n : Nat) → (p : UInt32) → Kern δ (List (List UInt8) × UInt32)
  | 0, p => return ([], p)
  | n + 1, p => do
      let m := (← get).mem
      let s ← strlen fuel (chars m p)
      let (names, last) ← nameWalk fuel n (p + (s.toUInt32 + 1))
      return ((List.range s.toUInt32.toNat).map (chars m p) :: names, last)

theorem IsStr.map_range {s : Nat → UInt8} {l : List UInt8} (h : IsStr s l) :
    (List.range l.length).map s = l := by
  refine List.ext_getElem (by simp) fun i hi hi' => ?_
  rw [List.getElem_map, List.getElem_range, h.char i hi']

/-- Over strings that follow one another the walk takes one string a step. -/
theorem nameWalk_run {names : List (List UInt8)} (h : BytesAt k.mem p (nameStrings names))
    (h0 : ∀ name ∈ names, 0 ∉ name) (hmax : (nameStrings names).length < 2 ^ 32)
    (hfuel : ∀ name ∈ names, name.length < fuel) :
    (nameWalk fuel names.length p).run k =
      .ok (names, p + UInt32.ofNat (nameStrings names).length) k := by
  induction names generalizing p with
  | nil =>
      rw [show p + UInt32.ofNat (nameStrings []).length = p from UInt32.add_zero p]
      rfl
  | cons name names ih =>
      rw [nameStrings_cons, List.length_append, List.length_append, List.length_singleton] at hmax
      rw [nameStrings_cons] at h
      obtain ⟨hname, hrest⟩ := bytesAt_append.mp h
      have hstr := isStr_of_bytesAt (h0 name List.mem_cons_self) hname
      have hnext : p + ((Int32.ofNat name.length).toUInt32 + 1) =
          p + UInt32.ofNat (name ++ [0]).length := by
        rw [Int32.toUInt32_ofNat', List.length_append, List.length_singleton, UInt32.ofNat_add]
        rfl
      have hlen : (Int32.ofNat name.length).toUInt32.toNat = name.length := by
        rw [Int32.toUInt32_ofNat', UInt32.toNat_ofNat_of_lt' (by simp only [UInt32.size]; omega)]
      have hwalk := ih hrest (fun s hs => h0 s (List.mem_cons_of_mem _ hs)) (by omega)
        fun s hs => hfuel s (List.mem_cons_of_mem _ hs)
      rw [List.length_cons, nameWalk, Exec.bind_ok (EStateM.run_get k),
        Exec.bind_ok (strlen_run hstr (hfuel name List.mem_cons_self)), hnext,
        Exec.bind_ok hwalk, hlen, hstr.map_range, nameStrings_cons, UInt32.add_assoc,
        ← UInt32.ofNat_add, ← List.length_append]
      rfl

theorem length_lt_nameStrings {names : List (List UInt8)} {name : List UInt8}
    (h : name ∈ names) : name.length < (nameStrings names).length := by
  obtain ⟨before, after, rfl⟩ := List.append_of_mem h
  simp only [nameStrings, List.flatMap_append, List.flatMap_cons, List.length_append,
    List.length_singleton]
  omega

theorem bytesAt_of_isStr {l : List UInt8} (h : IsStr (chars m p) l) : BytesAt m p (l ++ [0]) :=
  bytesAt_append.mpr ⟨h.char, bytesAt_cons.mpr ⟨h.stop, bytesAt_nil⟩⟩

/-- `strsplit` and the walk cut a string into its segments. The string and its terminator
are an object of C, and leave something of the address space. -/
theorem strsplit_nameWalk {d : UInt8} {l : List UInt8} (hstr : IsStr (chars k.mem p) l)
    (hmax : l.length + 1 < 2 ^ 32) (hfuel : l.length < fuel) :
    ∃ n names m, (strsplit fuel p d).run k = .ok n { k with mem := m } ∧
      (nameWalk fuel n.toUInt32.toNat p).run { k with mem := m } =
        .ok (names, p + UInt32.ofNat (l.length + 1)) { k with mem := m } ∧
      names.length = n.toUInt32.toNat ∧ (∀ name ∈ names, d ∉ name) ∧
      [d].intercalate names = l ∧
      ∀ a, m a = k.mem a ∨ ∃ i, ∃ hi : i < l.length, a = p + UInt32.ofNat i ∧ l[i] = d := by
  have hbytes := bytesAt_of_isStr hstr
  obtain ⟨m, hrun, hsplit, hoff⟩ := strsplit_run d hstr.nonzero hbytes hfuel
    (Nat.lt_of_succ_lt hmax)
  have hcount : (Int32.ofNat (l.count d) + 1).toUInt32.toNat = (l.splitOn d).length := by
    have hle := List.count_le_length (a := d) (l := l)
    rw [length_splitOn, ← show Int32.ofNat 1 = 1 from rfl, ← Int32.ofNat_add, Int32.toUInt32_ofNat',
      UInt32.toNat_ofNat_of_lt' (by simp only [UInt32.size]; omega)]
  have hlen : (nameStrings (l.splitOn d)).length = l.length + 1 := by
    rw [← map_splitOn, List.length_append, List.length_map, List.length_singleton]
  have hshort : ∀ name ∈ l.splitOn d, name.length < fuel := fun name hname => by
    have hlt := length_lt_nameStrings hname
    omega
  have hwalk := nameWalk_run (k := { k with mem := m }) (map_splitOn d l ▸ hsplit)
    (fun name hname h0 => hstr.nonzero ((mem_splitOn hname).2 0 h0)) (hlen ▸ hmax) hshort
  rw [hlen] at hwalk
  refine ⟨_, l.splitOn d, m, hrun, ?_, hcount.symm, fun name hname => (mem_splitOn hname).1,
    List.intercalate_splitOn d, fun a => ?_⟩
  · rw [hcount, hwalk]
  · by_cases hin : Span p l.length a
    · obtain ⟨i, hi, rfl⟩ := hin.exists_offset
      by_cases hdelim : l[i] = d
      · exact .inr ⟨i, hi, rfl, hdelim⟩
      · refine .inl ?_
        have hnew := (bytesAt_append.mp hsplit).1 i (by rw [List.length_map]; exact hi)
        rw [hnew, List.getElem_map, if_neg hdelim]
        exact (hstr.char i hi).symm
    · exact .inl (hoff a hin)

/-- A kernel with `/dev//` at `0x1000`. -/
def devKernel : Kernel Unit :=
  { Kernel.zero () with
    mem := (Kernel.zero ()).mem.write 0x1000 7 fun i =>
      [0x2F, 0x64, 0x65, 0x76, 0x2F, 0x2F].getD i 0 }

theorem strsplit_nameWalk_dev :
    ∃ n names m, (strsplit 7 0x1000 slash).run devKernel = .ok n { devKernel with mem := m } ∧
      (nameWalk 7 n.toUInt32.toNat 0x1000).run { devKernel with mem := m } =
        .ok (names, 0x1000 + UInt32.ofNat (6 + 1)) { devKernel with mem := m } ∧
      names.length = n.toUInt32.toNat ∧ (∀ name ∈ names, slash ∉ name) ∧
      [slash].intercalate names = [0x2F, 0x64, 0x65, 0x76, 0x2F, 0x2F] ∧
      ∀ a, m a = devKernel.mem a ∨ ∃ i, ∃ hi : i < 6, a = 0x1000 + UInt32.ofNat i ∧
        [0x2F, 0x64, 0x65, 0x76, 0x2F, 0x2F][i] = slash :=
  strsplit_nameWalk (l := [0x2F, 0x64, 0x65, 0x76, 0x2F, 0x2F])
    (show IsStr (chars devKernel.mem 0x1000) [0x2F, 0x64, 0x65, 0x76, 0x2F, 0x2F] from
      ⟨by decide, by decide, by decide⟩) (by decide) (by decide)

end Bedrock
