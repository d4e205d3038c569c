import Mathlib.Algebra.GroupWithZero.Nat
import Bedrock.Proofs.DriveProbe

/-!
# The drives that are found

`ide_initialize` reads its tape like a parser: it returns exactly on the tapes
that begin with a reply of each of the four places, and the replies are all
that decides what `ide_devices`, the log and the console are then. That is
`ideInitialize_iff`.

The table is first what the rounds make of it one after the other (`ideTable`)
and then described at once (`Recorded`): the drives without gaps in front, one
entry marked empty behind them if the last place had no drive, and whatever
the table held before in the rest.
-/

namespace Bedrock

open Lib

variable {channel drive : Fin 2} {α : Type}

/-! ## One place -/

/-- A place and what it replied. -/
structure Sighting where
  channel : Fin 2
  drive : Fin 2
  reply : Reply
deriving DecidableEq, Repr

/-- The words at the data port, as the bytes of a page. -/
def page (words : Nat → UInt16) : Nat → UInt8 :=
  fun j => byteOf (words (j / 2)).toNat (j % 2)

namespace Sighting

def place (σ : Sighting) : Fin 2 × Fin 2 := (σ.channel, σ.drive)

/-- The words of the data port that the place was worth. -/
def words (σ : Sighting) : Nat := if σ.reply.found.isSome then 256 else 0

/-- The entries of `ide_devices` that it was worth. -/
def entries (σ : Sighting) : Nat := if σ.reply.found.isSome then 1 else 0

/-- What is left in the next free entry, which held `old`. -/
def entry (σ : Sighting) (words : Nat → UInt16) (old : IdeDevice) : IdeDevice :=
  match σ.reply.found with
  | none => { old with reserved := 0 }
  | some type => identified σ.channel σ.drive type (page words)

def events (σ : Sighting) (channels : Fin 2 → IdeChannelRegisters) : List PortEvent :=
  probeEvents (channels σ.channel) σ.drive σ.reply ++
    if σ.reply.found.isSome then [.insw (channels σ.channel).base 256] else []

end Sighting

/-- The machine after the round of `σ`. -/
def Machine.sighted (s : Machine Ata) (count : Nat) (σ : Sighting) (rest : List UInt8) :
    Machine Ata :=
  { s with
    dev.inbox := rest
    dev.words := skip σ.words s.dev.words
    dev.log := s.dev.log ++ σ.events s.dev.channels
    dev.ideDevices := Function.update s.dev.ideDevices (UInt8.ofNat count)
      (σ.entry s.dev.words (s.dev.ideDevices (UInt8.ofNat count))) }

theorem dataPort_eq (c : IdeChannelRegisters) : portOf c 0x00 = some c.base := by
  rw [portOf, if_pos (by decide)]
  exact congrArg some ((UInt16.sub_zero _).trans (UInt16.add_zero _))

theorem ideReadBuffer_run (s : Machine Ata) :
    (ideReadBuffer channel 0x00 128).run s = .ok (page s.dev.words)
      { s.logged (.insw (s.dev.channels channel).base 256) with
        dev.words := skip 256 s.dev.words } := by
  rw [ideReadBuffer, Exec.bind_ok (EStateM.run_get s)]
  simp only [dataPort_eq]
  rfl

/-- The machine in which entry `count` is marked empty. -/
def Machine.cleared (s : Machine Ata) (count : Nat) : Machine Ata :=
  { s with
    dev.ideDevices := Function.update s.dev.ideDevices (UInt8.ofNat count)
      { s.dev.ideDevices (UInt8.ofNat count) with reserved := 0 } }

/-- Where nothing is found, the reply is all that happens. -/
theorem sighted_none {s : Machine Ata} {count : Nat} {r : Reply} {rest : List UInt8}
    (h : r.found = none) : s.sighted count ⟨channel, drive, r⟩ rest =
      (s.cleared count).heard (probeEvents (s.dev.channels channel) drive r) rest := by
  simp only [Machine.sighted, Machine.cleared, Machine.heard, Sighting.words, Sighting.entry,
    Sighting.events, h, Option.isSome_none, Bool.false_eq_true, if_false, List.append_nil,
    skip_zero]

/-- Where a drive is found, its page follows. -/
theorem sighted_some {s : Machine Ata} {count : Nat} {r : Reply} {rest : List UInt8}
    {type : DriveType} (h : r.found = some type) :
    (do
      let ideBuf ← ideReadBuffer channel 0x00 128
      setIdeDevice count (identified channel drive type ideBuf)
      return count + 1 : Drv Nat).run
      ((s.cleared count).heard (probeEvents (s.dev.channels channel) drive r) rest) =
      .ok (count + 1) (s.sighted count ⟨channel, drive, r⟩ rest) := by
  rw [Exec.bind_ok (ideReadBuffer_run _)]
  refine congrArg (EStateM.Result.ok (count + 1)) ?_
  simp only [Machine.sighted, Machine.cleared, Machine.heard, Machine.logged, Sighting.words,
    Sighting.entry, Sighting.events, h, Option.isSome_some, if_true, Function.update_idem,
    List.append_assoc]

theorem detectDrive_iff {count n : Nat} {s s' : Machine Ata} :
    (detectDrive channel drive count).run s = .ok n s' ↔
      ∃ r rest, r.Valid ∧ s.dev.inbox = r.tape ++ rest ∧
        n = count + Sighting.entries ⟨channel, drive, r⟩ ∧
        s' = s.sighted count ⟨channel, drive, r⟩ rest := by
  have hclear : (setIdeDevice count
      { s.dev.ideDevices (UInt8.ofNat count) with reserved := 0 }).run s =
        .ok () (s.cleared count) := rfl
  rw [detectDrive, Exec.bind_ok (EStateM.run_get s), Exec.bind_ok hclear, Exec.bind_iff]
  constructor
  · rintro ⟨t, s₁, hprobe, h⟩
    obtain ⟨_, _, rest, ⟨r, hr, rfl, rfl, rfl⟩, hbox, rfl⟩ :=
      (probeDrive_hears (s.cleared count) s₁ t rfl).mp hprobe
    refine ⟨r, rest, hr, hbox, ?_⟩
    cases hfound : r.found with
    | none =>
        rw [hfound] at h
        obtain ⟨rfl, rfl⟩ := Exec.pure_inv h
        rw [Sighting.entries, hfound]
        exact ⟨rfl, (sighted_none hfound).symm⟩
    | some type =>
        rw [hfound] at h
        cases (sighted_some hfound).symm.trans h
        rw [Sighting.entries, hfound]
        exact ⟨rfl, rfl⟩
  · rintro ⟨r, rest, hr, hbox, rfl, rfl⟩
    refine ⟨r.found, _, (probeDrive_hears (s.cleared count) _ _ rfl).mpr
      ⟨_, _, rest, ⟨r, hr, rfl, rfl, rfl⟩, hbox, rfl⟩, ?_⟩
    rw [Sighting.entries]
    cases hfound : r.found with
    | none =>
        rw [sighted_none hfound]
        rfl
    | some type => exact sighted_some hfound

/-! ## All places -/

/-- What `ide_devices` holds after the rounds of `σs`, the first of them with
`count` drives found. -/
def ideTable (words : Nat → UInt16) (count : Nat) (table : UInt8 → IdeDevice) :
    List Sighting → UInt8 → IdeDevice
  | [] => table
  | σ :: σs =>
      ideTable (skip σ.words words) (count + σ.entries)
        (Function.update table (UInt8.ofNat count)
          (σ.entry words (table (UInt8.ofNat count)))) σs

/-- The machine after the rounds of `σs`. -/
def Machine.surveyed (s : Machine Ata) (count : Nat) (σs : List Sighting)
    (rest : List UInt8) : Machine Ata :=
  { s with
    dev.inbox := rest
    dev.words := skip (σs.map Sighting.words).sum s.dev.words
    dev.log := s.dev.log ++ σs.flatMap fun σ => σ.events s.dev.channels
    dev.ideDevices := ideTable s.dev.words count s.dev.ideDevices σs }

theorem surveyed_cons (s : Machine Ata) (count : Nat) (σ : Sighting) (σs : List Sighting)
    (rest rest' : List UInt8) : s.surveyed count (σ :: σs) rest =
      (s.sighted count σ rest').surveyed (count + σ.entries) σs rest := by
  simp only [Machine.surveyed, Machine.sighted, ideTable, List.map_cons, List.sum_cons,
    List.flatMap_cons, List.append_assoc, skip_skip]

theorem surveyed_nil (s : Machine Ata) (count : Nat) :
    s.surveyed count [] s.dev.inbox = s := by
  simp only [Machine.surveyed, ideTable, List.map_nil, List.sum_nil, skip_zero,
    List.flatMap_nil, List.append_nil]

theorem detectDrives_iff {ps : List (Fin 2 × Fin 2)} {count n : Nat} {s s' : Machine Ata} :
    (detectDrives ps count).run s = .ok n s' ↔
      ∃ σs rest, σs.map Sighting.place = ps ∧ (∀ σ ∈ σs, σ.reply.Valid) ∧
        s.dev.inbox = (σs.flatMap fun σ => σ.reply.tape) ++ rest ∧
        n = count + (σs.map Sighting.entries).sum ∧ s' = s.surveyed count σs rest := by
  induction ps generalizing s count with
  | nil =>
      rw [detectDrives]
      constructor
      · intro h
        obtain ⟨rfl, rfl⟩ := Exec.pure_inv h
        exact ⟨[], _, rfl, nofun, rfl, rfl, (surveyed_nil s' n).symm⟩
      · rintro ⟨σs, rest, hps, -, hbox, rfl, rfl⟩
        cases List.map_eq_nil_iff.mp hps
        rw [List.flatMap_nil, List.nil_append] at hbox
        rw [← hbox, surveyed_nil, EStateM.run_pure]
        rfl
  | cons p ps ih =>
      rw [detectDrives, Exec.bind_iff]
      constructor
      · rintro ⟨m, s₁, hfirst, hrest⟩
        obtain ⟨r, rest, hr, hbox, rfl, rfl⟩ := detectDrive_iff.mp hfirst
        obtain ⟨σs, rest', hps, hvalid, hbox', rfl, rfl⟩ := ih.mp hrest
        refine ⟨⟨p.1, p.2, r⟩ :: σs, rest', by rw [List.map_cons, hps]; rfl,
          List.forall_mem_cons.mpr ⟨hr, hvalid⟩, ?_, ?_, (surveyed_cons ..).symm⟩
        · rw [hbox, show rest = _ from hbox', List.flatMap_cons, List.append_assoc]
        · rw [List.map_cons, List.sum_cons, Nat.add_assoc]
      · rintro ⟨σs, rest, hps, hvalid, hbox, rfl, rfl⟩
        obtain ⟨σ, σs, rfl, rfl, rfl⟩ := List.map_eq_cons_iff.mp hps
        obtain ⟨hr, hvalid⟩ := List.forall_mem_cons.mp hvalid
        rw [List.flatMap_cons, List.append_assoc] at hbox
        refine ⟨_, _, detectDrive_iff.mpr ⟨σ.reply, _, hr, hbox, rfl, rfl⟩,
          ih.mpr ⟨σs, rest, rfl, hvalid, rfl, ?_, surveyed_cons ..⟩⟩
        rw [List.map_cons, List.sum_cons, Nat.add_assoc]
        rfl

/-! ## The table -/

/-- A drive that was found. -/
structure FoundDrive where
  channel : Fin 2
  drive : Fin 2
  type : DriveType
deriving DecidableEq, Repr

def Sighting.found (σ : Sighting) : Option FoundDrive :=
  σ.reply.found.map fun type => ⟨σ.channel, σ.drive, type⟩

/-- The drives that were found, in the order of their places. -/
def drivesOf (σs : List Sighting) : List FoundDrive := σs.filterMap Sighting.found

/-- The last place had no drive. -/
def lastVacant (σs : List Sighting) : Bool := σs.getLast?.any fun σ => σ.found.isNone

/-- What the rounds leave of `ide_devices`: the drives that were found without
gaps, each with its own page; one more entry marked empty if the last place had
no drive; and the entries behind as they were. -/
structure Recorded (σs : List Sighting) (words : Nat → UInt16) (old table : UInt8 → IdeDevice) :
    Prop where
  found : ∀ i d, (drivesOf σs)[i]? = some d →
    table (UInt8.ofNat i) = identified d.channel d.drive d.type (page (skip (256 * i) words))
  behind : ∀ n : UInt8, (drivesOf σs).length ≤ n.toNat →
    table n =
      if n.toNat = (drivesOf σs).length ∧ lastVacant σs then { old n with reserved := 0 }
      else old n

/-- The two clauses leave nothing open. -/
theorem Recorded.unique {σs : List Sighting} {words : Nat → UInt16}
    {old table table' : UInt8 → IdeDevice} (h : Recorded σs words old table)
    (h' : Recorded σs words old table') : table' = table := by
  funext n
  rcases Nat.lt_or_ge n.toNat (drivesOf σs).length with hlt | hge
  · have hd := List.getElem?_eq_getElem hlt
    have hn : UInt8.ofNat n.toNat = n := UInt8.ofNat_toNat
    have h₁ := h.found n.toNat _ hd
    rw [← h'.found n.toNat _ hd, hn] at h₁
    exact h₁.symm
  · rw [h.behind n hge, h'.behind n hge]

theorem Sighting.of_found {σ : Sighting} {d : FoundDrive} (h : σ.found = some d) :
    σ.words = 256 ∧ σ.entries = 1 ∧
      ∀ words old, σ.entry words old = identified d.channel d.drive d.type (page words) := by
  obtain ⟨type, htype, rfl⟩ := Option.map_eq_some_iff.mp h
  simp [Sighting.words, Sighting.entries, Sighting.entry, htype]

theorem Sighting.of_none {σ : Sighting} (h : σ.found = none) :
    σ.words = 0 ∧ σ.entries = 0 ∧
      ∀ words old, σ.entry words old = { old with reserved := 0 } := by
  have hnone := Option.map_eq_none_iff.mp h
  simp [Sighting.words, Sighting.entries, Sighting.entry, hnone]

theorem drivesOf_cons_none {σ : Sighting} (h : σ.found = none) (σs : List Sighting) :
    drivesOf (σ :: σs) = drivesOf σs := List.filterMap_cons_none h

theorem drivesOf_cons_some {σ : Sighting} {d : FoundDrive} (h : σ.found = some d)
    (σs : List Sighting) : drivesOf (σ :: σs) = d :: drivesOf σs := List.filterMap_cons_some h

/-- A page is worth 256 words. -/
theorem words_sum (σs : List Sighting) :
    (σs.map Sighting.words).sum = 256 * (drivesOf σs).length := by
  induction σs with
  | nil => rfl
  | cons σ σs ih =>
      rw [List.map_cons, List.sum_cons, ih]
      cases h : σ.found with
      | none =>
          rw [drivesOf_cons_none h, (Sighting.of_none h).1, Nat.zero_add]
      | some d =>
          rw [drivesOf_cons_some h, (Sighting.of_found h).1, List.length_cons]
          omega

section

variable {words : Nat → UInt16} {count : Nat} {table : UInt8 → IdeDevice}

theorem ofNat_ne {m n : Nat} (hm : m < 256) (hn : n < 256) (h : m ≠ n) :
    UInt8.ofNat m ≠ UInt8.ofNat n := by
  intro heq
  have := congrArg UInt8.toNat heq
  rw [UInt8.toNat_ofNat_of_lt' hm, UInt8.toNat_ofNat_of_lt' hn] at this
  exact h this

/-- The entries below the count are not touched any more. -/
theorem ideTable_below {σs : List Sighting} (hlen : count + σs.length ≤ 256) {m : Nat}
    (hm : m < count) : ideTable words count table σs (UInt8.ofNat m) = table (UInt8.ofNat m) := by
  induction σs generalizing words count table with
  | nil => rfl
  | cons σ σs ih =>
      rw [List.length_cons] at hlen
      have hentries : σ.entries ≤ 1 := by
        rw [Sighting.entries]
        split <;> decide
      rw [ideTable, ih (by omega) (by omega),
        Function.update_of_ne (ofNat_ne (by omega) (by omega) (by omega))]

/-- The drive that is found as number `i` is in entry `i` behind the count. -/
theorem ideTable_found {σs : List Sighting} (hlen : count + σs.length ≤ 256) {i : Nat}
    {d : FoundDrive} (h : (drivesOf σs)[i]? = some d) :
    ideTable words count table σs (UInt8.ofNat (count + i)) =
      identified d.channel d.drive d.type (page (skip (256 * i) words)) := by
  induction σs generalizing words count table i with
  | nil => cases h
  | cons σ σs ih =>
      rw [List.length_cons] at hlen
      cases hσ : σ.found with
      | none =>
          obtain ⟨hwords, hentries, -⟩ := Sighting.of_none hσ
          rw [drivesOf_cons_none hσ] at h
          rw [ideTable, hwords, hentries, skip_zero]
          exact ih (by omega) h
      | some e =>
          obtain ⟨hwords, hentries, hentry⟩ := Sighting.of_found hσ
          rw [drivesOf_cons_some hσ] at h
          rw [ideTable, hwords, hentries, hentry]
          cases i with
          | zero =>
              cases h
              have hlen' : count + 1 + σs.length ≤ 256 := by omega
              simp only [Nat.add_zero]
              rw [ideTable_below hlen' (Nat.lt_succ_self count), Function.update_self,
                Nat.mul_zero, skip_zero]
          | succ i =>
              rw [show count + (i + 1) = count + 1 + i by omega, ih (by omega) h, skip_skip,
                show 256 + 256 * i = 256 * (i + 1) by omega]

theorem lastVacant_cons_none {σ : Sighting} (h : σ.found = none) (σs : List Sighting) :
    lastVacant (σ :: σs) = (σs.isEmpty || lastVacant σs) := by
  cases σs with
  | nil => rw [lastVacant, List.getLast?_singleton, Option.any_some, h]; rfl
  | cons τ τs => rw [lastVacant, lastVacant, List.getLast?_cons_cons]; rfl

theorem lastVacant_cons_some {σ : Sighting} {d : FoundDrive} (h : σ.found = some d)
    (σs : List Sighting) : lastVacant (σ :: σs) = lastVacant σs := by
  cases σs with
  | nil => rw [lastVacant, List.getLast?_singleton, Option.any_some, h]; rfl
  | cons τ τs => rw [lastVacant, lastVacant, List.getLast?_cons_cons]

/-- Where no place has a drive, the last one has none. -/
theorem lastVacant_of_none {σs : List Sighting} (h : drivesOf σs = []) :
    (σs.isEmpty || lastVacant σs) = true := by
  induction σs with
  | nil => rfl
  | cons σ σs ih =>
      cases hσ : σ.found with
      | none =>
          rw [drivesOf_cons_none hσ] at h
          rw [lastVacant_cons_none hσ, ih h, Bool.or_true]
      | some d =>
          rw [drivesOf_cons_some hσ] at h
          cases h

/-- An entry behind the drives that were found. -/
theorem ideTable_behind {σs : List Sighting} (hlen : count + σs.length ≤ 256) {m : Nat}
    (hm : count + (drivesOf σs).length ≤ m) (hlt : m < 256) :
    ideTable words count table σs (UInt8.ofNat m) =
      if m = count + (drivesOf σs).length ∧ lastVacant σs then
        { table (UInt8.ofNat m) with reserved := 0 }
      else table (UInt8.ofNat m) := by
  induction σs generalizing words count table with
  | nil =>
      rw [if_neg (by rintro ⟨-, h⟩; cases h)]
      rfl
  | cons σ σs ih =>
      rw [List.length_cons] at hlen
      cases hσ : σ.found with
      | none =>
          obtain ⟨hwords, hentries, hentry⟩ := Sighting.of_none hσ
          rw [drivesOf_cons_none hσ] at hm ⊢
          rw [ideTable, hwords, hentries, hentry, lastVacant_cons_none hσ, Nat.add_zero,
            ih (by omega) hm]
          by_cases hmc : m = count
          · -- entry `count` itself: no drive follows, so some place marks it empty
            have hnone : (drivesOf σs).length = 0 := by omega
            have hend : m = count + (drivesOf σs).length ∧
                (σs.isEmpty || lastVacant σs) = true :=
              ⟨by omega, lastVacant_of_none (List.length_eq_zero_iff.mp hnone)⟩
            rw [if_pos hend, hmc, Function.update_self]
            exact ite_self _
          · rw [Function.update_of_ne (ofNat_ne hlt (by omega) hmc)]
            refine if_congr (and_congr_right fun hend => ?_) rfl rfl
            cases σs with
            | nil => exact absurd hend hmc
            | cons τ τs => rfl
      | some d =>
          obtain ⟨hwords, hentries, hentry⟩ := Sighting.of_found hσ
          rw [drivesOf_cons_some hσ, List.length_cons] at hm ⊢
          rw [ideTable, hwords, hentries, hentry, lastVacant_cons_some hσ,
            ih (by omega) (by omega),
            Function.update_of_ne (ofNat_ne hlt (by omega) (by omega)),
            show count + 1 + (drivesOf σs).length = count + ((drivesOf σs).length + 1) by omega]

end

theorem drivesOf_length_le (σs : List Sighting) : (drivesOf σs).length ≤ σs.length :=
  List.length_filterMap_le _ _

theorem recorded_ideTable {σs : List Sighting} (hlen : σs.length ≤ 256)
    (words : Nat → UInt16) (old : UInt8 → IdeDevice) :
    Recorded σs words old (ideTable words 0 old σs) where
  found i d h := by
    have hfound : ideTable words 0 old σs (UInt8.ofNat (0 + i)) = _ :=
      ideTable_found (by rwa [Nat.zero_add]) h
    rwa [Nat.zero_add] at hfound
  behind n hn := by
    have hbehind : ideTable words 0 old σs (UInt8.ofNat n.toNat) = _ :=
      ideTable_behind (by rwa [Nat.zero_add]) (by rwa [Nat.zero_add]) n.toNat_lt
    rwa [Nat.zero_add, UInt8.ofNat_toNat] at hbehind

/-! ## The summary, and the whole of `ide_initialize` -/

/-- The summary's messages about one entry. -/
def foundLines (device : IdeDevice) : List Msg :=
  [.str "\\ found ", .str device.type.name, .str " drive ("] ++
    (if device.size = 0 then [.str "empty"]
    else if device.size / 1024 / 1024 / 2 = 0 then [.int device.size, .str " sectors"]
    else [.int (device.size / 1024 / 1024 / 2), .str " GB"]) ++
    [.str ") - ", .bytes device.model, .str "\n"]

/-- The summary's messages about the entries in `ns`. -/
def summary (table : UInt8 → IdeDevice) (ns : List Nat) : List Msg :=
  ns.flatMap fun i =>
    if (table (UInt8.ofNat i)).reserved = 1 then foundLines (table (UInt8.ofNat i)) else []

def Machine.printAll (s : Machine Ata) (msgs : List Msg) : Machine Ata :=
  { s with console := s.console ++ msgs }

/-- The program returns and prints `msgs`. -/
def Prints (x : Drv Unit) (msgs : List Msg) : Prop :=
  ∀ s : Machine Ata, x.run s = .ok () (s.printAll msgs)

theorem Prints.pure : Prints (Pure.pure ()) [] := fun s => by
  rw [Machine.printAll, List.append_nil, EStateM.run_pure]

theorem Prints.one (msg : Msg) : Prints (drvPrint msg) [msg] := fun _ => rfl

theorem Prints.bind {x : Drv Unit} {f : Unit → Drv Unit} {msgs msgs' : List Msg}
    (hx : Prints x msgs) (hf : Prints (f ()) msgs') : Prints (x >>= f) (msgs ++ msgs') := by
  intro s
  rw [Exec.bind_ok (hx s), hf, Machine.printAll, Machine.printAll, Machine.printAll,
    List.append_assoc]

theorem printFound_prints (device : IdeDevice) :
    Prints (printFound device) (foundLines device) := by
  have hend := (Prints.one (.str ") - ")).bind (f := fun _ => _)
    ((Prints.one (.bytes device.model)).bind (f := fun _ => _) (Prints.one (.str "\n")))
  have hstart : ∀ {x : Drv Unit} {msgs : List Msg}, Prints x msgs → Prints (do
      drvPrint (.str "\\ found ")
      drvPrint (.str device.type.name)
      drvPrint (.str " drive (")
      x) ([.str "\\ found ", .str device.type.name, .str " drive ("] ++ msgs) := fun hx =>
    (Prints.one _).bind ((Prints.one _).bind ((Prints.one _).bind hx))
  rw [printFound, foundLines, List.append_assoc]
  refine hstart ?_
  split
  · exact (Prints.one _).bind hend
  · split
    · exact (Prints.one _).bind ((Prints.one _).bind hend)
    · exact (Prints.one _).bind ((Prints.one _).bind hend)

theorem printSummary_run (n i : Nat) (s : Machine Ata) : (printSummary n i).run s =
    .ok () (s.printAll (summary s.dev.ideDevices (List.range' i n))) := by
  induction n generalizing i s with
  | zero => exact Prints.pure s
  | succ n ih =>
      rw [printSummary, Exec.bind_ok (EStateM.run_get s), List.range'_succ, summary,
        List.flatMap_cons]
      by_cases h : (s.dev.ideDevices (UInt8.ofNat i)).reserved = 1
      · simp only [if_pos h]
        rw [Exec.bind_ok (printFound_prints _ s), ih, Machine.printAll, Machine.printAll,
          Machine.printAll, List.append_assoc]
        rfl
      · simp only [if_neg h, List.nil_append]
        exact ih (i + 1) s

theorem controlEvents_eq (c : IdeChannelRegisters) (data : UInt8) :
    writeEvents c 0x0C data = [.outb (altStatusPort c) data] := by
  rw [writeEvents, if_neg (by decide), outEvents, altStatusPort_eq]

/-- The machine after steps 1 and 2. -/
def Machine.opened (s : Machine Ata) (channels : Fin 2 → IdeChannelRegisters) : Machine Ata :=
  { s with
    dev.channels := channels
    dev.log := s.dev.log ++ [.outb (altStatusPort (channels ataPrimary)) 2,
      .outb (altStatusPort (channels ataSecondary)) 2] }

/-- The machine after the replies of `σs`, with `table` in `ide_devices`. -/
def Machine.initialized (s : Machine Ata) (channels : Fin 2 → IdeChannelRegisters)
    (σs : List Sighting) (rest : List UInt8) (table : UInt8 → IdeDevice) : Machine Ata :=
  { s with
    console := s.console ++ summary table (List.range 4)
    dev.inbox := rest
    dev.words := skip (256 * (drivesOf σs).length) s.dev.words
    dev.channels := channels
    dev.ideDevices := table
    dev.log := s.dev.log ++ ([.outb (altStatusPort (channels ataPrimary)) 2,
      .outb (altStatusPort (channels ataSecondary)) 2] ++
        σs.flatMap fun σ => σ.events channels) }

theorem opened_run (channels : Fin 2 → IdeChannelRegisters) (s : Machine Ata) (x : Drv α) :
    (do
      setChannels channels
      ideWrite ataPrimary 0x0C 2
      ideWrite ataSecondary 0x0C 2
      x : Drv α).run s = x.run (s.opened (keepNIEN channels s.dev.channels)) := by
  have hset : (setChannels channels).run s =
      .ok () { s with dev.channels := keepNIEN channels s.dev.channels } := rfl
  rw [Exec.bind_ok hset, Exec.bind_ok (ideWrite_sends _ _ _ rfl),
    Exec.bind_ok (ideWrite_sends _ _ _ rfl), loggedAll_loggedAll, controlEvents_eq,
    controlEvents_eq]
  rfl

/-- The tape begins with the replies of `σs`, one for each place. -/
structure Surveyed (σs : List Sighting) (rest : List UInt8) (s : Machine Ata) : Prop where
  places : σs.map Sighting.place = drivePlaces
  valid : ∀ σ ∈ σs, σ.reply.Valid
  tape : s.dev.inbox = (σs.flatMap fun σ => σ.reply.tape) ++ rest

theorem Surveyed.length {σs : List Sighting} {rest : List UInt8} {s : Machine Ata}
    (h : Surveyed σs rest s) : σs.length = 4 := by
  have hlen := congrArg List.length h.places
  rwa [List.length_map] at hlen

theorem Surveyed.recorded {σs : List Sighting} {rest : List UInt8} {s : Machine Ata}
    (h : Surveyed σs rest s) : Recorded σs s.dev.words s.dev.ideDevices
      (ideTable s.dev.words 0 s.dev.ideDevices σs) :=
  recorded_ideTable (by rw [h.length]; decide) _ _

theorem ideInitialize_run_iff {bar0 bar1 bar2 bar3 bar4 : UInt32} {s s' : Machine Ata} :
    (ideInitialize bar0 bar1 bar2 bar3 bar4).run s = .ok () s' ↔
      ∃ σs rest, Surveyed σs rest s ∧
        s' = s.initialized (keepNIEN (ideChannels bar0 bar1 bar2 bar3 bar4) s.dev.channels)
          σs rest (ideTable s.dev.words 0 s.dev.ideDevices σs) := by
  generalize hchannels : keepNIEN (ideChannels bar0 bar1 bar2 bar3 bar4) s.dev.channels = channels
  have hrun : (ideInitialize bar0 bar1 bar2 bar3 bar4).run s =
      (detectDrives drivePlaces 0 >>= fun _ => printSummary 4 0).run (s.opened channels) := by
    rw [← hchannels]
    exact opened_run _ s _
  have hend : ∀ σs rest, ((s.opened channels).surveyed 0 σs rest).printAll
      (summary (ideTable s.dev.words 0 s.dev.ideDevices σs) (List.range 4)) =
        s.initialized channels σs rest (ideTable s.dev.words 0 s.dev.ideDevices σs) := by
    intro σs rest
    simp only [Machine.printAll, Machine.surveyed, Machine.opened, Machine.initialized, words_sum,
      List.append_assoc]
  rw [hrun, Exec.bind_iff]
  constructor
  · rintro ⟨n, s₁, hdetect, h⟩
    obtain ⟨σs, rest, hplaces, hvalid, hbox, -, rfl⟩ := detectDrives_iff.mp hdetect
    rw [printSummary_run] at h
    injection h with _ h
    exact ⟨σs, rest, ⟨hplaces, hvalid, hbox⟩, h.symm.trans (hend σs rest)⟩
  · rintro ⟨σs, rest, h, rfl⟩
    refine ⟨_, _, detectDrives_iff.mpr ⟨σs, rest, h.places, h.valid, h.tape, rfl, rfl⟩, ?_⟩
    rw [printSummary_run, ← hend]
    rfl

/-- `ide_initialize` returns exactly on the tapes that begin with a reply of
each of the four places, and these replies decide all that it does. -/
theorem ideInitialize_iff {bar0 bar1 bar2 bar3 bar4 : UInt32} {s s' : Machine Ata} :
    (ideInitialize bar0 bar1 bar2 bar3 bar4).run s = .ok () s' ↔
      ∃ σs rest table, Surveyed σs rest s ∧ Recorded σs s.dev.words s.dev.ideDevices table ∧
        s' = s.initialized (keepNIEN (ideChannels bar0 bar1 bar2 bar3 bar4) s.dev.channels)
          σs rest table := by
  rw [ideInitialize_run_iff]
  constructor
  · rintro ⟨σs, rest, h, rfl⟩
    exact ⟨σs, rest, _, h, h.recorded, rfl⟩
  · rintro ⟨σs, rest, table, h, htable, rfl⟩
    cases h.recorded.unique htable
    exact ⟨σs, rest, h, rfl⟩

end Bedrock
